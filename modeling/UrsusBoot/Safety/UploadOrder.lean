import UrsusBoot.Safety.UploadVerdict

/-!
# Uploads are not mixed

A chunk is admitted when its header is complete and stored as its body arrives, so that two chunks
of one window may be under way at the same time. What the window holds is compared with what an
observer of the requests and their replies has noted.
-/

namespace UrsusBoot

open Prog
open FipUpdate (samplePlatform sampleWorld freshTable)

/-! ## What an observer notes -/

/-- The header of the request bytes belong to, and what of them is its body. -/
def Conn.split (c : Conn) (bs : List UInt8) : Option (List UInt8 × List UInt8) :=
  if c.headersDone then some (cstr c.reqhdr, bs)
  else
    match feedHeader c.reqhdr bs with
    | .complete hdr rest => some (cstr hdr, rest)
    | _ => none

structure ChunkRequest where
  offset : ℕ
  generation : List UInt8
  body : List UInt8

/-- The request with header `h` once `body` has arrived. -/
def ChunkRequest.of (h body : List UInt8) : ChunkRequest where
  offset := (parseHeaderUlong h "X-Ursus-Offset").getD 0
  generation := (parseHeaderValue h "X-Ursus-Generation" generationMax).getD []
  body := body.take ((parseHeaderUlong h "Content-Length").getD 0)

/-- What each connection has delivered after its header, and the accepted chunks of each upload
since it was begun. -/
structure Ledger where
  body : ℕ → List UInt8
  accepted : UploadKind → List ChunkRequest

def Ledger.empty : Ledger := ⟨fun _ => [], fun _ => []⟩

def Ledger.answered (g : Ledger) (h body : List UInt8) (reply : Reply) : Ledger :=
  match Route.ofHeader h with
  | .begin k =>
    if reply.status = 200 then
      { g with accepted := fun k' => if k'.Shares k then [] else g.accepted k' }
    else g
  | .discard k => { g with accepted := Function.update g.accepted k [] }
  | .chunk k =>
    if reply.refusesChunk then g
    else { g with accepted := Function.update g.accepted k (g.accepted k ++ [.of h body]) }
  | _ => g

/-- Bytes of a body arrive, and there may be a reply. -/
def Ledger.heard (g : Ledger) (id : ℕ) (h bs : List UInt8) (reply : Option Reply) : Ledger :=
  let g' : Ledger := { g with body := Function.update g.body id (g.body id ++ bs) }
  match reply with
  | none => g'
  | some reply => g'.answered h (g.body id ++ bs) reply

/-- The reply an event leads to, whatever becomes of its transmission. -/
def Board.answer (P : Platform) (L : FitLib) (b : Board) (i : Input × (ℕ → Outcome)) :
    Option Reply :=
  match i.1 with
  | .recv id bs _ => (b.host.conns id).bind fun c =>
    (run exec (hears P L b.host.web c bs) i.2 b.world).val.reply
  | _ => none

def Ledger.step (P : Platform) (L : FitLib) (b : Board) (g : Ledger) (i : Input × (ℕ → Outcome)) :
    Ledger :=
  match b.host.phase, i.1 with
  | .net, .accept => { g with body := Function.update g.body (b.host.connId + 1) [] }
  | .net, .recv id bs _ =>
    match (b.host.conns id).bind fun c => c.split bs with
    | none => g
    | some (h, rest) => g.heard id h rest (b.answer P L i)
  | .exited, .restart _ _ => { g with accepted := fun _ => [] }
  | _, _ => g

def noted (P : Platform) (L : FitLib) (x : Board × Ledger) (i : Input × (ℕ → Outcome)) :
    Board × Ledger :=
  (x.1.step P L i, x.2.step P L x.1 i)

def bodies (l : List ChunkRequest) : List UInt8 := l.flatMap ChunkRequest.body

theorem bodies_concat (l : List ChunkRequest) (e : ChunkRequest) :
    bodies (l ++ [e]) = bodies l ++ e.body := by
  simp [bodies]

/-- Each request starts where the one before it ends. -/
def Consecutive : ℕ → List ChunkRequest → Prop
  | _, [] => True
  | n, e :: l => e.offset = n ∧ Consecutive (n + e.body.length) l

variable {l : List ChunkRequest}

theorem consecutive_concat {n : ℕ} {e : ChunkRequest} (h : Consecutive n l)
    (he : e.offset = n + (bodies l).length) : Consecutive n (l ++ [e]) := by
  induction l generalizing n with
  | nil => exact ⟨by simpa [bodies] using he, trivial⟩
  | cons x l ih =>
    refine ⟨h.1, ih h.2 ?_⟩
    simp only [bodies, List.flatMap_cons, List.length_append] at he ⊢
    omega

/-! ## The condition -/

/-- An upload is begun, or a chunk of it announced, only when no connection is still to deliver a
chunk of the same window. -/
def OneAtATime (b : Board) (i : Input × (ℕ → Outcome)) : Prop :=
  ∀ k, b.host.phase = .net →
    (b.host.completes i.1 = some (.begin k) ∨ b.host.completes i.1 = some (.chunk k)) →
    ∀ id ch, b.host.pending id = some ch → ¬ ch.kind.Shares k

/-- The upload of kind `k` ends with the event: one of its window begins, it is discarded, or
`ursusweb` is run again. -/
def Board.Ends (P : Platform) (L : FitLib) (b : Board) (i : Input × (ℕ → Outcome))
    (k : UploadKind) : Prop :=
  (b.host.phase = .net ∧ ∃ k', k'.Shares k ∧ b.host.completes i.1 = some (.begin k') ∧
    ∃ reply, b.answer P L i = some reply ∧ reply.status = 200) ∨
  (b.host.phase = .net ∧ b.host.completes i.1 = some (.discard k)) ∨
  (b.host.phase = .exited ∧ ∃ probe ok, i.1 = .restart probe ok)

/-! ## The invariant -/

/-- The connection has announced the chunk `ch` and delivered part of it. -/
structure InFlight (u : Uploads) (ram : Mem UInt8) (body : List UInt8) (c : Conn) (ch : Chunk) :
    Prop where
  headersDone : c.headersDone = true
  route : Route.ofHeader (cstr c.reqhdr) = .chunk ch.kind
  request : ∀ bs, ChunkRequest.of (cstr c.reqhdr) bs =
    ⟨ch.offset, ch.generation, bs.take ch.contentLen⟩
  received : body.length = ch.received
  short : ch.received < ch.contentLen
  /-- The other upload of the window is not under way. -/
  alone : ∀ k, k ≠ ch.kind → k.Shares ch.kind → (u.session k).active = false
  /-- The chunk continues its own upload. -/
  placed : (u.session ch.kind).active = true → ch.generation = (u.session ch.kind).generation ∧
    ch.offset = (u.session ch.kind).received ∧
    ch.offset + ch.contentLen ≤ (u.session ch.kind).total ∧
    ram.slice (ch.kind.stageAddr + ch.offset) ch.received = body

structure Kept (u : Uploads) (ram : Mem UInt8) (l : List ChunkRequest) (k : UploadKind) : Prop where
  consecutive : Consecutive 0 l
  content : ram.slice k.stageAddr (u.session k).received = bodies l
  generation : ∀ e ∈ l, e.generation = (u.session k).generation
  le_total : (u.session k).received ≤ (u.session k).total
  complete : (u.session k).active = false → (u.session k).total = 0 ∨
    (u.session k).received = (u.session k).total
  /-- Nothing has been received while the other upload of the window is under way. -/
  yields : ∀ k', k' ≠ k → k'.Shares k → (u.session k').active = true → (u.session k).received = 0

structure Tidy (u : Uploads) (conns : ℕ → Option Conn) (ram : Mem UInt8) (g : Ledger) : Prop where
  single : ∀ id id' c c' ch ch', conns id = some c → conns id' = some c' → c.pending = some ch →
    c'.pending = some ch' → ch.kind.Shares ch'.kind → id = id'
  fresh : ∀ id c, conns id = some c → c.reply = none → c.headersDone = false → g.body id = []
  inFlight : ∀ id c ch, conns id = some c → c.pending = some ch → InFlight u ram (g.body id) c ch
  kept : ∀ k, Kept u ram (g.accepted k) k

/-- The upload has not shrunk, and what it had received is as it was. -/
structure Grows (u u' : Uploads) (ram ram' : Mem UInt8) (k : UploadKind) : Prop where
  received : (u.session k).received ≤ (u'.session k).received
  content : ∀ x < (u.session k).received, ram' (k.stageAddr + x) = ram (k.stageAddr + x)

theorem pending_eq_some {c : Conn} {ch : Chunk} :
    c.pending = some ch ↔ c.reply = none ∧ c.chunk = some ch := by
  unfold Conn.pending
  cases c.reply <;> simp

theorem Settled.ne_some {c : Option Conn} (h : Settled c) {c' : Conn} (hreply : c'.reply = none) :
    c ≠ some c' := by
  intro hc
  have hsome := h c' hc
  rw [hreply] at hsome
  exact Bool.false_ne_true hsome

section Invariant

variable {u u' : Uploads} {conns conns' : ℕ → Option Conn} {ram ram' : Mem UInt8} {g g' : Ledger}

theorem pending_update {id id' : ℕ} {c c' : Conn} {ch ch' : Chunk} (hch : c.chunk = some ch)
    (hc' : Function.update conns id (some c) id' = some c') (hch' : c'.pending = some ch') :
    (id' = id ∧ c' = c ∧ ch' = ch) ∨ (id' ≠ id ∧ conns id' = some c') := by
  by_cases hid : id' = id
  · subst hid
    rw [Function.update_self, Option.some.injEq] at hc'
    subst hc'
    have hself := (pending_eq_some.1 hch').2
    rw [hch, Option.some.injEq] at hself
    exact .inl ⟨rfl, rfl, hself.symm⟩
  · rw [Function.update_of_ne hid] at hc'
    exact .inr ⟨hid, hc'⟩

variable {k : UploadKind}

theorem received_le_maxLen (h : Kept u ram l k) :
    (u.session k).received ≤ k.maxLen := by
  have hle := h.le_total
  rcases (u.session k).wf with hwf | hwf
  · omega
  · omega

theorem Kept.congr (h : Kept u ram l k) (hsession : u'.session = u.session)
    (hram : ∀ x < (u.session k).received, ram' (k.stageAddr + x) = ram (k.stageAddr + x)) :
    Kept u' ram' l k := by
  have hslice : ram'.slice k.stageAddr (u.session k).received =
      ram.slice k.stageAddr (u.session k).received := by
    apply Mem.slice_congr
    intro x hx hxn
    obtain ⟨y, rfl⟩ := Nat.exists_eq_add_of_le hx
    exact hram y (by omega)
  constructor
  · exact h.consecutive
  · rw [hsession, hslice]
    exact h.content
  · rw [hsession]
    exact h.generation
  · rw [hsession]
    exact h.le_total
  · rw [hsession]
    exact h.complete
  · rw [hsession]
    exact h.yields

theorem Kept.of_session (h : Kept u ram l k) (hsession : u'.session k = u.session k)
    (hactive : ∀ k', k'.Shares k → (u'.session k').active = true → (u.session k').active = true) :
    Kept u' ram l k := by
  constructor
  · exact h.consecutive
  · rw [hsession]
    exact h.content
  · rw [hsession]
    exact h.generation
  · rw [hsession]
    exact h.le_total
  · rw [hsession]
    exact h.complete
  · intro k' hne hsh hon
    rw [hsession]
    exact h.yields k' hne hsh (hactive k' hsh hon)

theorem InFlight.congr {body : List UInt8} {c : Conn} {ch : Chunk} (h : InFlight u ram body c ch)
    (hsession : u'.session = u.session)
    (hram : ∀ x, ch.kind.InWindow x → ram' x = ram x) : InFlight u' ram' body c ch := by
  have hfit := ch.fits
  have hslice : ram'.slice (ch.kind.stageAddr + ch.offset) ch.received =
      ram.slice (ch.kind.stageAddr + ch.offset) ch.received := by
    apply Mem.slice_congr
    intro x hx hxn
    apply hram
    unfold UploadKind.InWindow
    omega
  refine ⟨h.headersDone, h.route, h.request, h.received, h.short, ?_, ?_⟩
  · rw [hsession]
    exact h.alone
  · rw [hsession, hslice]
    exact h.placed

theorem Tidy.congr (h : Tidy u conns ram g) (hsession : u'.session = u.session)
    (hram : ∀ x < ubiReadbackAddr, ram' x = ram x)
    (hconns : ∀ id c, conns' id = some c → c.reply = none →
      (conns id = some c ∧ g'.body id = g.body id) ∨
        (c.chunk = none ∧ (c.headersDone = false → g'.body id = [])))
    (haccepted : g'.accepted = g.accepted) : Tidy u' conns' ram' g' := by
  have hold : ∀ id c ch, conns' id = some c → c.pending = some ch →
      conns id = some c ∧ g'.body id = g.body id := by
    intro id c ch hc hch
    obtain ⟨hreply, hchunk⟩ := pending_eq_some.1 hch
    rcases hconns id c hc hreply with hsame | ⟨hnone, -⟩
    · exact hsame
    · rw [hchunk] at hnone
      exact absurd hnone (Option.some_ne_none ch)
  constructor
  · intro id id' c c' ch ch' hc hc' hch hch' hsh
    exact h.single id id' c c' ch ch' (hold id c ch hc hch).1 (hold id' c' ch' hc' hch').1 hch hch'
      hsh
  · intro id c hc hreply hdone
    rcases hconns id c hc hreply with ⟨hc₀, hbody⟩ | ⟨-, hbody⟩
    · rw [hbody]
      exact h.fresh id c hc₀ hreply hdone
    · exact hbody hdone
  · intro id c ch hc hch
    obtain ⟨hc₀, hbody⟩ := hold id c ch hc hch
    rw [hbody]
    exact (h.inFlight id c ch hc₀ hch).congr hsession fun x hx => hram x hx.below
  · intro k
    rw [haccepted]
    have hmax := received_le_maxLen (h.kept k)
    apply (h.kept k).congr hsession
    intro x hx
    apply hram
    apply UploadKind.InWindow.below (k := k)
    unfold UploadKind.InWindow
    omega

theorem grows_refl (hsession : u'.session = u.session)
    (hram : ∀ x < ubiReadbackAddr, ram' x = ram x) (h : Kept u ram l k) :
    Grows u u' ram ram' k := by
  have hmax := received_le_maxLen h
  refine ⟨by rw [hsession], fun x hx => hram _ ?_⟩
  apply UploadKind.InWindow.below (k := k)
  unfold UploadKind.InWindow
  omega

/-! ### Requests -/

variable {s : Web}

theorem Tidy.begun (h : Tidy s.uploads conns ram g) {k₀ : UploadKind} (u₀ : UploadSession k₀)
    (hrec : u₀.received = 0) (hact : u₀.active = true)
    (hno : ∀ id c ch, conns id = some c → c.pending = some ch → ¬ ch.kind.Shares k₀) :
    Tidy (s.begun u₀).uploads conns ram
      { g with accepted := fun k => if k.Shares k₀ then [] else g.accepted k } := by
  have hzero : ∀ k, k.Shares k₀ → ((s.begun u₀).session k).received = 0 := by
    intro k hk
    by_cases he : k = k₀
    · subst he
      rw [Web.begun_session]
      exact hrec
    · rw [begun_session_cleared s u₀ he hk]
      rfl
  constructor
  · exact h.single
  · exact h.fresh
  · intro id c ch hc hch
    have hk := hno id c ch hc hch
    have hin := h.inFlight id c ch hc hch
    refine ⟨hin.headersDone, hin.route, hin.request, hin.received, hin.short, ?_, ?_⟩
    · intro k hne hsh
      show ((s.begun u₀).session k).active = false
      rw [begun_session_of_apart s u₀ fun he => hk (hsh.symm.trans he)]
      exact hin.alone k hne hsh
    · show ((s.begun u₀).session ch.kind).active = true → _
      simp only [Web.uploads]
      rw [begun_session_of_apart s u₀ hk]
      exact hin.placed
  · intro k
    by_cases hk : k.Shares k₀
    · -- the window starts anew
      dsimp only
      rw [if_pos hk]
      have hrec' := hzero k hk
      refine ⟨trivial, ?_, (fun _ he => nomatch he), ?_, ?_, fun _ _ _ _ => hrec'⟩
      · show ram.slice k.stageAddr ((s.begun u₀).session k).received = bodies []
        rw [hrec']
        rfl
      · show ((s.begun u₀).session k).received ≤ _
        rw [hrec']
        exact Nat.zero_le _
      · intro hoff
        by_cases he : k = k₀
        · subst he
          have hon : ((s.begun u₀).session k).active = false := hoff
          rw [Web.begun_session, hact] at hon
          exact absurd hon.symm Bool.false_ne_true
        · left
          show ((s.begun u₀).session k).total = 0
          rw [begun_session_cleared s u₀ he hk]
          rfl
    · dsimp only
      rw [if_neg hk]
      apply (h.kept k).of_session (begun_session_of_apart s u₀ hk)
      intro k' hsh hon
      have hon' : ((s.begun u₀).session k').active = true := hon
      rw [begun_session_of_apart s u₀ fun he => hk (hsh.symm.trans he)] at hon'
      exact hon'

theorem grows_begun (h : Tidy s.uploads conns ram g) {k₀ : UploadKind} (u₀ : UploadSession k₀)
    (hram : ∀ x < ubiReadbackAddr, ram' x = ram x) (hk : ¬ k.Shares k₀) :
    Grows s.uploads (s.begun u₀).uploads ram ram' k := by
  have hsame : (s.begun u₀).session k = s.session k := begun_session_of_apart s u₀ hk
  have hgrow : Grows s.uploads s.uploads ram ram' k := grows_refl rfl hram (h.kept k)
  refine ⟨?_, hgrow.content⟩
  show (s.session k).received ≤ ((s.begun u₀).session k).received
  rw [hsame]

theorem Tidy.discarded (h : Tidy s.uploads conns ram g) (k₀ : UploadKind) :
    Tidy (s.discarded k₀).uploads conns ram
      { g with accepted := Function.update g.accepted k₀ [] } := by
  have hoff : ∀ k, (s.session k).active = false → ((s.discarded k₀).session k).active = false := by
    intro k hk
    by_contra hno
    exact absurd (hk.symm.trans (discarded_session_active s (by simpa using hno))) (by decide)
  constructor
  · exact h.single
  · exact h.fresh
  · intro id c ch hc hch
    have hin := h.inFlight id c ch hc hch
    refine ⟨hin.headersDone, hin.route, hin.request, hin.received, hin.short, ?_, ?_⟩
    · intro k hne hsh
      exact hoff k (hin.alone k hne hsh)
    · intro hon
      have hne : ch.kind ≠ k₀ := by
        rintro rfl
        have hon' : ((s.discarded ch.kind).session ch.kind).active = true := hon
        rw [discarded_session_self] at hon'
        exact absurd hon' Bool.false_ne_true
      have hon' : ((s.discarded k₀).session ch.kind).active = true := hon
      simp only [Web.uploads]
      rw [discarded_session_of_ne s hne] at hon' ⊢
      exact hin.placed hon'
  · intro k
    by_cases hk : k = k₀
    · subst hk
      have hself : (s.discarded k).session k = _ := discarded_session_self s
      dsimp only
      rw [Function.update_self]
      refine ⟨trivial, ?_, (fun _ he => nomatch he), ?_, fun _ => ?_, fun _ _ _ _ => ?_⟩
      · simp only [Web.uploads]
        rw [hself]
        rfl
      · simp only [Web.uploads]
        rw [hself]
        exact le_rfl
      · left
        simp only [Web.uploads]
        rw [hself]
        rfl
      · simp only [Web.uploads]
        rw [hself]
        rfl
    · dsimp only
      rw [Function.update_of_ne hk]
      apply (h.kept k).of_session (discarded_session_of_ne s hk)
      intro k' _ hon
      exact discarded_session_active s hon

theorem grows_discarded (h : Tidy s.uploads conns ram g) {k₀ k : UploadKind} (hk : k ≠ k₀)
    (hram : ∀ x < ubiReadbackAddr, ram' x = ram x) :
    Grows s.uploads (s.discarded k₀).uploads ram ram' k := by
  have hsame := discarded_session_of_ne s hk
  have hgrow : Grows s.uploads s.uploads ram ram' k := grows_refl rfl hram (h.kept k)
  refine ⟨?_, hgrow.content⟩
  show (s.session k).received ≤ ((s.discarded k₀).session k).received
  rw [hsame]

theorem Tidy.cleared (h : Tidy u conns ram g)
    (hconns : ∀ id, conns' id = conns id ∨ Settled (conns' id)) :
    Tidy ({} : Web).uploads conns' ram { g with accepted := fun _ => [] } := by
  have hold : ∀ {id c}, conns' id = some c → c.reply = none → conns id = some c := by
    intro id c hc hreply
    rcases hconns id with hid | hid
    · rw [← hid]
      exact hc
    · exact absurd hc (hid.ne_some hreply)
  constructor
  · intro id id' c c' ch ch' hc hc' hch hch' hsh
    exact h.single id id' c c' ch ch' (hold hc (pending_eq_some.1 hch).1)
      (hold hc' (pending_eq_some.1 hch').1) hch hch' hsh
  · intro id c hc hreply hdone
    exact h.fresh id c (hold hc hreply) hreply hdone
  · intro id c ch hc hch
    have hin := h.inFlight id c ch (hold hc (pending_eq_some.1 hch).1) hch
    exact ⟨hin.headersDone, hin.route, hin.request, hin.received, hin.short, fun _ _ _ => rfl,
      nofun⟩
  · intro k
    exact ⟨trivial, rfl, nofun, le_rfl, fun _ => .inl rfl, fun _ _ _ _ => rfl⟩

theorem Tidy.chunk_eq_none (h : Tidy u conns ram g) {id : ℕ} {c : Conn} (hc : conns id = some c)
    (hreply : c.reply = none) (hdone : c.headersDone = false) : c.chunk = none := by
  cases hchunk : c.chunk with
  | none => rfl
  | some ch =>
    have hin := (h.inFlight id c ch hc (pending_eq_some.2 ⟨hreply, hchunk⟩)).headersDone
    rw [hdone] at hin
    exact absurd hin Bool.false_ne_true

theorem Tidy.announce (h : Tidy s.uploads conns ram g) (hsound : s.uploads.Sound) {id : ℕ} {c : Conn}
    {hdr : List UInt8} {ch : Chunk} (hc : conns id = some c) (hreply : c.reply = none)
    (hdone : c.headersDone = false) (hroute : Route.ofHeader (cstr hdr) = .chunk ch.kind)
    (hadm : Admits (cstr hdr) s ch.kind ch)
    (hno : ∀ id c ch', conns id = some c → c.pending = some ch' → ¬ ch'.kind.Shares ch.kind) :
    Tidy s.uploads (Function.update conns id (some { c.routed hdr with chunk := some ch })) ram
      g := by
  have hbody : g.body id = [] := h.fresh id c hc hreply hdone
  have hnew : InFlight s.uploads ram (g.body id) { c.routed hdr with chunk := some ch } ch := by
    rw [hbody]
    refine ⟨rfl, hroute, ?_, hadm.received.symm, ?_, ?_, ?_⟩
    · intro bs
      show ChunkRequest.of (cstr hdr) bs = _
      unfold ChunkRequest.of
      rw [← hadm.offset_eq, ← hadm.generation_eq, ← hadm.length_eq]
    · rw [hadm.received]
      exact hadm.nonempty
    · intro k hne hsh
      exact hsound.single ch.kind k hne.symm hsh.symm hadm.active
    · intro _
      refine ⟨hadm.generation, hadm.offset, hadm.fits, ?_⟩
      rw [hadm.received]
      rfl
  constructor
  · intro id₁ id₂ c₁ c₂ ch₁ ch₂ h₁ h₂ hch₁ hch₂ hsh
    rcases pending_update rfl h₁ hch₁ with ⟨rfl, -, rfl⟩ | ⟨-, h₁'⟩
    · rcases pending_update rfl h₂ hch₂ with ⟨rfl, -, -⟩ | ⟨-, h₂'⟩
      · rfl
      · exact absurd hsh.symm (hno id₂ c₂ ch₂ h₂' hch₂)
    · rcases pending_update rfl h₂ hch₂ with ⟨rfl, -, rfl⟩ | ⟨-, h₂'⟩
      · exact absurd hsh (hno id₁ c₁ ch₁ h₁' hch₁)
      · exact h.single id₁ id₂ c₁ c₂ ch₁ ch₂ h₁' h₂' hch₁ hch₂ hsh
  · intro id' c' hc' hreply' hdone'
    by_cases hid : id' = id
    · rw [hid]
      exact hbody
    · rw [Function.update_of_ne hid] at hc'
      exact h.fresh id' c' hc' hreply' hdone'
  · intro id' c' ch' hc' hch'
    rcases pending_update rfl hc' hch' with ⟨rfl, rfl, rfl⟩ | ⟨-, hc''⟩
    · exact hnew
    · exact h.inFlight id' c' ch' hc'' hch'
  · exact h.kept

/-! ### Bodies -/

section Body

variable {id : ℕ} {c : Conn} {ch : Chunk} {bs : List UInt8}

theorem blit_apart {n x : ℕ} (hk : ¬ k.Shares ch.kind) (hx : k.InWindow x) :
    ram.blit ch.dest (bs.take (ch.take n)) x = ram x := by
  by_cases hlow : x < ch.dest
  · exact Mem.blit_apply_of_lt _ _ hlow
  by_cases hhigh : ch.dest + (bs.take (ch.take n)).length ≤ x
  · exact Mem.blit_apply_of_ge _ hhigh
  · rw [List.length_take] at hhigh
    have hin : ch.kind.InWindow x := ch.dest_inWindow (n := n) (by omega) (by omega)
    exact absurd (hx.shares hin) hk

theorem Tidy.below (h : Tidy u conns ram g) (hc : conns id = some c) (hch : c.pending = some ch)
    (hact : (u.session ch.kind).active = true) {n : ℕ} (k : UploadKind) {x : ℕ}
    (hx : x < (u.session k).received) :
    ram.blit ch.dest (bs.take (ch.take n)) (k.stageAddr + x) = ram (k.stageAddr + x) := by
  have hin := h.inFlight id c ch hc hch
  by_cases hk : k.Shares ch.kind
  · by_cases he : k = ch.kind
    · -- the chunk starts where the upload ends
      subst he
      have hoff := (hin.placed hact).2.1
      have haddr := ch.fits.1
      apply Mem.blit_apply_of_lt
      unfold Chunk.dest
      omega
    · have hzero := (h.kept k).yields ch.kind (fun e => he e.symm) hk.symm hact
      omega
  · have hmax := received_le_maxLen (h.kept k)
    apply blit_apart hk
    unfold UploadKind.InWindow
    omega

theorem slice_body {n : ℕ} (hn : ch.take n ≤ bs.length) (haddr : ch.addr = ch.kind.stageAddr)
    (hslice : ram.slice (ch.kind.stageAddr + ch.offset) ch.received = g.body id) :
    (ram.blit ch.dest (bs.take (ch.take n))).slice (ch.kind.stageAddr + ch.offset)
      (ch.received + ch.take n) = g.body id ++ bs.take (ch.take n) := by
  have hdest : ch.kind.stageAddr + ch.offset + ch.received = ch.dest := by
    unfold Chunk.dest
    rw [haddr]
  have hlen : (bs.take (ch.take n)).length = ch.take n := by
    rw [List.length_take]
    omega
  have htail := Mem.slice_blit ram ch.dest (bs.take (ch.take n))
  rw [hlen] at htail
  rw [Mem.slice_add, hdest, htail, Mem.slice_blit_disjoint ram (.inl (by omega)), hslice]

theorem Tidy.part (h : Tidy u conns ram g) (hc : conns id = some c) (hch : c.pending = some ch)
    (hact : (u.session ch.kind).active = true)
    (hpart : (ch.advance bs.length).received ≠ ch.contentLen) :
    Tidy u (Function.update conns id (some { c with chunk := some (ch.advance bs.length) }))
      (ram.blit ch.dest (bs.take (ch.take bs.length)))
      { g with body := Function.update g.body id (g.body id ++ bs) } := by
  have hin := h.inFlight id c ch hc hch
  have hreply := (pending_eq_some.1 hch).1
  have htake : ch.take bs.length = bs.length := by
    have hadv : ch.received + ch.take bs.length ≠ ch.contentLen := hpart
    unfold Chunk.take at hadv ⊢
    have := hin.short
    omega
  have hnew : InFlight u (ram.blit ch.dest (bs.take (ch.take bs.length))) (g.body id ++ bs)
      { c with chunk := some (ch.advance bs.length) } (ch.advance bs.length) := by
    refine ⟨hin.headersDone, hin.route, hin.request, ?_, ?_, hin.alone, ?_⟩
    · show (g.body id ++ bs).length = ch.received + ch.take bs.length
      rw [List.length_append, hin.received, htake]
    · have hfit := (ch.advance bs.length).fits.2.2
      exact lt_of_le_of_ne hfit hpart
    · intro hon
      obtain ⟨hgen, hoff, htotal, hslice⟩ := hin.placed hon
      refine ⟨hgen, hoff, htotal, ?_⟩
      have hfull := slice_body (min_le_right (ch.contentLen - ch.received) bs.length) ch.fits.1
        hslice
      rw [htake, List.take_length] at hfull
      rw [htake, List.take_length]
      show Mem.slice _ (ch.kind.stageAddr + ch.offset) (ch.received + ch.take bs.length) = _
      rw [htake]
      exact hfull
  constructor
  · intro id₁ id₂ c₁ c₂ ch₁ ch₂ h₁ h₂ hch₁ hch₂ hsh
    rcases pending_update rfl h₁ hch₁ with ⟨rfl, -, rfl⟩ | ⟨-, h₁'⟩
    · rcases pending_update rfl h₂ hch₂ with ⟨rfl, -, -⟩ | ⟨-, h₂'⟩
      · rfl
      · exact h.single id₁ id₂ c c₂ ch ch₂ hc h₂' hch hch₂ hsh
    · rcases pending_update rfl h₂ hch₂ with ⟨rfl, -, rfl⟩ | ⟨-, h₂'⟩
      · exact h.single id₁ id₂ c₁ c ch₁ ch h₁' hc hch₁ hch hsh
      · exact h.single id₁ id₂ c₁ c₂ ch₁ ch₂ h₁' h₂' hch₁ hch₂ hsh
  · intro id' c' hc' hreply' hdone'
    by_cases hid : id' = id
    · subst hid
      rw [Function.update_self, Option.some.injEq] at hc'
      subst hc'
      have hdone : c.headersDone = false := hdone'
      rw [hin.headersDone] at hdone
      exact absurd hdone.symm Bool.false_ne_true
    · rw [Function.update_of_ne hid] at hc'
      dsimp only
      rw [Function.update_of_ne hid]
      exact h.fresh id' c' hc' hreply' hdone'
  · intro id' c' ch' hc' hch'
    rcases pending_update rfl hc' hch' with ⟨rfl, rfl, rfl⟩ | ⟨hid, hc''⟩
    · dsimp only
      rw [Function.update_self]
      exact hnew
    · dsimp only
      rw [Function.update_of_ne hid]
      have hsh : ¬ ch'.kind.Shares ch.kind := fun he =>
        hid (h.single id' id c' c ch' ch hc'' hc hch' hch he)
      exact (h.inFlight id' c' ch' hc'' hch').congr rfl fun x hx => blit_apart hsh hx
  · intro k
    exact (h.kept k).congr rfl fun x hx => h.below hc hch hact k hx

/-- The upload of the chunk has taken it, and is over only if that was its end. -/
structure Advances (u u' : Uploads) (ch : Chunk) : Prop where
  other : ∀ k, k ≠ ch.kind → u'.session k = u.session k
  received : (u'.session ch.kind).received = ch.offset + ch.contentLen
  total : (u'.session ch.kind).total = (u.session ch.kind).total
  generation : (u'.session ch.kind).generation = (u.session ch.kind).generation
  complete : (u'.session ch.kind).active = false →
    ch.offset + ch.contentLen = (u.session ch.kind).total

theorem Tidy.accept (h : Tidy u conns ram g) (hc : conns id = some c) (hch : c.pending = some ch)
    (hact : (u.session ch.kind).active = true)
    (hfull : (ch.advance bs.length).received = ch.contentLen) {c' : Option Conn} (hset : Settled c')
    (hu : Advances u u' ch) :
    Tidy u' (Function.update conns id c') (ram.blit ch.dest (bs.take (ch.take bs.length)))
      ⟨Function.update g.body id (g.body id ++ bs), Function.update g.accepted ch.kind
        (g.accepted ch.kind ++ [.of (cstr c.reqhdr) (g.body id ++ bs)])⟩ := by
  have hin := h.inFlight id c ch hc hch
  obtain ⟨hgen, hoff, hfit, hslice⟩ := hin.placed hact
  have hlen : ch.received + ch.take bs.length = ch.contentLen := hfull
  have hle : ch.take bs.length ≤ bs.length := min_le_right _ _
  -- only an upload that was under way still is
  have hactive : ∀ k, (u'.session k).active = true → (u.session k).active = true := by
    intro k hon
    by_cases hk : k = ch.kind
    · rw [hk]
      exact hact
    · rwa [hu.other k hk] at hon
  have hold : ∀ {id' c₁}, Function.update conns id c' id' = some c₁ → c₁.reply = none →
      id' ≠ id ∧ conns id' = some c₁ := by
    intro id' c₁ hc₁ hreply
    by_cases hid : id' = id
    · subst hid
      rw [Function.update_self] at hc₁
      exact absurd hc₁ (hset.ne_some hreply)
    · rw [Function.update_of_ne hid] at hc₁
      exact ⟨hid, hc₁⟩
  have hbody : (g.body id ++ bs).take ch.contentLen = g.body id ++ bs.take (ch.take bs.length) := by
    rw [← hlen, ← hin.received, List.take_length_add_append]
  constructor
  · intro id₁ id₂ c₁ c₂ ch₁ ch₂ h₁ h₂ hch₁ hch₂ hsh
    exact h.single id₁ id₂ c₁ c₂ ch₁ ch₂ (hold h₁ (pending_eq_some.1 hch₁).1).2
      (hold h₂ (pending_eq_some.1 hch₂).1).2 hch₁ hch₂ hsh
  · intro id' c₁ hc₁ hreply hdone
    obtain ⟨hid, hc₁'⟩ := hold hc₁ hreply
    dsimp only
    rw [Function.update_of_ne hid]
    exact h.fresh id' c₁ hc₁' hreply hdone
  · intro id' c₁ ch₁ hc₁ hch₁
    obtain ⟨hid, hc₁'⟩ := hold hc₁ (pending_eq_some.1 hch₁).1
    have hsh : ¬ ch₁.kind.Shares ch.kind := fun he =>
      hid (h.single id' id c₁ c ch₁ ch hc₁' hc hch₁ hch he)
    have hne : ch₁.kind ≠ ch.kind := fun he => hsh (by rw [he]; rfl)
    have hflight :
        InFlight u (ram.blit ch.dest (bs.take (ch.take bs.length))) (g.body id') c₁ ch₁ :=
      (h.inFlight id' c₁ ch₁ hc₁' hch₁).congr rfl fun x hx => blit_apart hsh hx
    dsimp only
    rw [Function.update_of_ne hid]
    refine ⟨hflight.headersDone, hflight.route, hflight.request, hflight.received, hflight.short,
      ?_, ?_⟩
    · intro k hk hksh
      rw [hu.other k fun he => hsh (by rw [← he]; exact hksh.symm)]
      exact hflight.alone k hk hksh
    · rw [hu.other ch₁.kind hne]
      exact hflight.placed
  · intro k
    by_cases hk : k = ch.kind
    · subst hk
      have hkept := h.kept ch.kind
      have hcontent : (ram.blit ch.dest (bs.take (ch.take bs.length))).slice ch.kind.stageAddr
          ch.offset = bodies (g.accepted ch.kind) := by
        rw [hoff, ← hkept.content]
        apply Mem.slice_congr
        intro x hx hxn
        obtain ⟨y, rfl⟩ := Nat.exists_eq_add_of_le hx
        exact h.below hc hch hact ch.kind (by omega)
      have hnewbody := slice_body hle ch.fits.1 hslice
      have hcount : (bodies (g.accepted ch.kind)).length = ch.offset := by
        rw [← hkept.content, Mem.length_slice, hoff]
      dsimp only
      rw [Function.update_self]
      refine ⟨?_, ?_, ?_, ?_, ?_, ?_⟩
      · apply consecutive_concat hkept.consecutive
        rw [hin.request, hcount, Nat.zero_add]
      · rw [hu.received, Mem.slice_add, hcontent, ← hlen, hnewbody, bodies_concat, hin.request]
        dsimp only
        rw [hbody]
      · intro e he
        rw [hu.generation]
        rcases List.mem_append.1 he with he | he
        · exact hkept.generation e he
        · rw [List.mem_singleton.1 he, hin.request]
          exact hgen
      · rw [hu.received, hu.total]
        exact hfit
      · intro hoff'
        right
        rw [hu.received, hu.total]
        exact hu.complete hoff'
      · intro k' hne hsh hon
        rw [hu.other k' hne, hin.alone k' hne hsh] at hon
        exact absurd hon Bool.false_ne_true
    · dsimp only
      rw [Function.update_of_ne hk]
      have hkept : Kept u (ram.blit ch.dest (bs.take (ch.take bs.length))) (g.accepted k) k :=
        (h.kept k).congr rfl fun x hx => h.below hc hch hact k hx
      exact hkept.of_session (hu.other k hk) fun k' _ hon => hactive k' hon

theorem Tidy.of_ram (h : Tidy u conns ram g) (hram : ∀ x < ubiReadbackAddr, ram' x = ram x) :
    Tidy u conns ram' g :=
  h.congr rfl hram (fun _ _ hc _ => .inl ⟨hc, rfl⟩) rfl

theorem Grows.of_ram {ram'' : Mem UInt8} (h : Grows u u' ram' ram'' k) (hkept : Kept u ram l k)
    (hram : ∀ x < ubiReadbackAddr, ram' x = ram x) : Grows u u' ram ram'' k :=
  ⟨h.received, fun x hx => (h.content x hx).trans ((grows_refl rfl hram hkept).content x hx)⟩

theorem Tidy.grows (h : Tidy u conns ram g) (hc : conns id = some c) (hch : c.pending = some ch)
    (hact : (u.session ch.kind).active = true)
    (hst : ∀ x < ubiReadbackAddr, ram' x = ram.blit ch.dest (bs.take (ch.take bs.length)) x)
    (hle : ∀ k, (u.session k).received ≤ (u'.session k).received) (k : UploadKind) :
    Grows u u' ram ram' k := by
  refine ⟨hle k, fun x hx => ?_⟩
  have hmax := received_le_maxLen (h.kept k)
  have hbelow : k.stageAddr + x < ubiReadbackAddr := by
    apply UploadKind.InWindow.below (k := k)
    unfold UploadKind.InWindow
    omega
  rw [hst _ hbelow]
  exact h.below hc hch hact k hx

theorem Tidy.accepts (h : Tidy u conns ram g) (hc : conns id = some c) (hch : c.pending = some ch)
    (hact : (u.session ch.kind).active = true)
    (hfull : (ch.advance bs.length).received = ch.contentLen)
    (hst : ∀ x < ubiReadbackAddr, ram' x = ram.blit ch.dest (bs.take (ch.take bs.length)) x)
    {c' : Option Conn} (hset : Settled c') {reply : Reply} (hreply : reply.refusesChunk = false)
    (hu : Advances u u' ch) :
    Tidy u' (Function.update conns id c') ram' (g.heard id (cstr c.reqhdr) bs (some reply)) ∧
      ∀ k, Grows u u' ram ram' k := by
  have hin := h.inFlight id c ch hc hch
  constructor
  · unfold Ledger.heard Ledger.answered
    simp only [hin.route, hreply, Bool.false_eq_true, if_false]
    exact (h.accept hc hch hact hfull hset hu).of_ram hst
  · apply h.grows hc hch hact hst
    intro k
    by_cases hk : k = ch.kind
    · have hoff := (hin.placed hact).2.1
      rw [hk, hu.received]
      omega
    · rw [hu.other k hk]

theorem advances_of_session {s' : Web} {x : UploadSession ch.kind}
    (hs : s'.session = (s.setSession x).session) (hreceived : x.received = ch.offset + ch.contentLen)
    (htotal : x.total = (s.session ch.kind).total)
    (hgeneration : x.generation = (s.session ch.kind).generation)
    (hcomplete : x.active = false → ch.offset + ch.contentLen = (s.session ch.kind).total) :
    Advances s.uploads s'.uploads ch := by
  have hself : s'.uploads.session ch.kind = x := (congrFun hs ch.kind).trans (setSession_self s x)
  constructor
  · exact fun k hk => (congrFun hs k).trans (setSession_of_ne s x hk)
  all_goals rw [hself]
  exacts [hreceived, htotal, hgeneration, hcomplete]

theorem Tidy.delivers {P : Platform} {L : FitLib} {w w' : World} {x : Fed} {es : List FlashEvent}
    (h : Tidy s.uploads conns w.ram g) (hc : conns id = some c) (hch : c.pending = some ch)
    (hd : Delivers P L s ch bs w x w' es) (hothers : ∀ id', id' ≠ id → conns' id' = conns id')
    (hwaits : ∀ s' c', x.heard (c.took ch bs.length) = .waits s' c' → conns' id = some c')
    (hsettled : (∀ s' c', x.heard (c.took ch bs.length) ≠ .waits s' c') → Settled (conns' id))
    (hram : ∀ x < ubiReadbackAddr, ram' x = w'.ram x) :
    Tidy (x.heard (c.took ch bs.length)).web.uploads conns' ram'
        (g.heard id (cstr c.reqhdr) bs (x.heard (c.took ch bs.length)).reply) ∧
      ∀ k, Grows s.uploads (x.heard (c.took ch bs.length)).web.uploads w.ram ram' k := by
  have hin := h.inFlight id c ch hc hch
  have hupdate : conns' = Function.update conns id (conns' id) := by
    funext id'
    by_cases hid : id' = id
    · rw [hid, Function.update_self]
    · rw [Function.update_of_ne hid, hothers id' hid]
  cases hd with
  | nothing hbs =>
    have hsame : ({ c with chunk := some ch } : Conn) = c := by
      rw [← (pending_eq_some.1 hch).2]
    have hconn : conns' id = conns id := ((hwaits _ _ rfl).trans (congrArg some hsame)).trans hc.symm
    rw [hconn, Function.update_eq_self] at hupdate
    have hledger : g.heard id (cstr c.reqhdr) bs none = g := by
      simp [Ledger.heard, hbs]
    refine ⟨?_, fun k => grows_refl rfl hram (h.kept k)⟩
    show Tidy s.uploads conns' ram' (g.heard id (cstr c.reqhdr) bs none)
    rw [hledger, hupdate]
    exact h.of_ram hram
  | refused hbs hact =>
    have hset := hsettled (fun _ _ => nofun)
    refine ⟨?_, fun k => grows_refl rfl hram (h.kept k)⟩
    refine h.congr rfl hram ?_ rfl
    intro id' c' hc' hreply
    have hid : id' ≠ id := by
      rintro rfl
      exact hset.ne_some hreply hc'
    rw [hothers id' hid] at hc'
    exact .inl ⟨hc', Function.update_of_ne hid _ _⟩
  | part hact hpart hst =>
    have hconn := hwaits _ _ rfl
    have hst' : ∀ x < ubiReadbackAddr,
        ram' x = w.ram.blit ch.dest (bs.take (ch.take bs.length)) x :=
      fun x hx => (hram x hx).trans (hst.ram x hx)
    refine ⟨?_, h.grows hc hch hact hst' fun _ => le_rfl⟩
    rw [hupdate, hconn]
    exact (h.part hc hch hact hpart).of_ram hst'
  | stale hact _ hgen _ _ _ _ => exact absurd (hin.placed hact).1 hgen
  | @accepted r w' es hact hfull hgen hmore hst hweb hreply _ =>
    rw [hupdate]
    apply h.accepts hc hch hact hfull (fun x hx => (hram x hx).trans (hst.ram x hx))
      (hsettled fun _ _ => nofun) hreply
    have hon : (s.advanced ch).active = true := hact
    exact advances_of_session (congrArg Web.session hweb) rfl rfl rfl fun hoff =>
      absurd (hon.symm.trans hoff) (by decide)
  | @completed r w₁ w' es es' o os hact hfull hgen hdone hst hrun hreply _ =>
    -- the validation writes neither the sessions nor the windows
    have hcalm := calm_run (sparesStage_completeUpload P L
      (s.setSession (s.advanced ch).close) ch.kind) os w₁
    have hverdict := (completeUpload_verdict (s.setSession (s.advanced ch).close) P L
      ch.kind).run_of os w₁ fun _ _ => trivial
    rw [hrun] at hcalm hverdict
    rw [hupdate]
    apply h.accepts hc hch hact hfull
      (fun x hx => ((hram x hx).trans (hcalm.ram x hx)).trans (hst.ram x hx))
      (hsettled fun _ _ => nofun) hreply
    exact advances_of_session hverdict.1 rfl rfl rfl fun _ => hdone

end Body

/-! ### Events -/

section Event

variable {P : Platform} {L : FitLib} {b b' : Board} {i : Input × (ℕ → Outcome)} {id : ℕ} {c : Conn}
  {bs : List UInt8} {p : Pump}

theorem Ledger.step_aside (h : b.host.Aside i.1) : g.step P L b i = g := by
  unfold Host.Aside at h
  unfold Ledger.step
  cases hphase : b.host.phase <;> cases hi : i.1 <;> simp_all

theorem Ledger.step_recv (hphase : b.host.phase = .net) (hi : i.1 = .recv id bs p)
    (hc : b.host.conns id = some c) {x : Heard}
    (hx : (run exec (hears P L b.host.web c bs) i.2 b.world).val = x) :
    g.step P L b i = match c.split bs with
      | none => g
      | some (h, rest) => g.heard id h rest x.reply := by
  have hanswer : b.answer P L i = x.reply := by
    simp [Board.answer, hi, hc, hx]
  simp only [Ledger.step, hphase, hi, hc, Option.bind_some, hanswer]

theorem Ledger.answered_other {h body : List UInt8} {reply : Reply}
    (hbegin : ∀ k, Route.ofHeader h = .begin k → reply.status ≠ 200)
    (hdiscard : ∀ k, Route.ofHeader h ≠ .discard k)
    (hchunk : ∀ k, Route.ofHeader h = .chunk k → reply.refusesChunk = true) :
    g.answered h body reply = g := by
  unfold Ledger.answered
  split
  · rename_i k hk
    exact if_neg (hbegin k hk)
  · rename_i k hk
    exact absurd hk (hdiscard k)
  · rename_i k hk
    exact if_pos (hchunk k hk)
  · rfl

theorem Tidy.request {hdr : List UInt8} (rest : List UInt8) {r : Served}
    (h : Tidy s.uploads conns ram g) (hr : Requested (Route.ofHeader (cstr hdr)) s r)
    (hno : ∀ k, Route.ofHeader (cstr hdr) = .begin k →
      ∀ id c ch, conns id = some c → c.pending = some ch → ¬ ch.kind.Shares k)
    (hothers : ∀ id', id' ≠ id → conns' id' = conns id') (hsettled : Settled (conns' id))
    (hram : ∀ x < ubiReadbackAddr, ram' x = ram x) :
    Tidy r.web.uploads conns' ram' (g.heard id (cstr hdr) rest (some r.reply)) ∧
      ∀ k, ¬ ((∃ k', k'.Shares k ∧ Route.ofHeader (cstr hdr) = .begin k' ∧ r.reply.status = 200) ∨
        Route.ofHeader (cstr hdr) = .discard k) → Grows s.uploads r.web.uploads ram ram' k := by
  have hconns : ∀ id' c', conns' id' = some c' → c'.reply = none → conns id' = some c' ∧
      Function.update g.body id (g.body id ++ rest) id' = g.body id' := by
    intro id' c' hc' hreply
    have hid : id' ≠ id := by
      rintro rfl
      exact hsettled.ne_some hreply hc'
    rw [hothers id' hid] at hc'
    exact ⟨hc', Function.update_of_ne hid _ _⟩
  have hbody : Tidy s.uploads conns' ram'
      { g with body := Function.update g.body id (g.body id ++ rest) } :=
    h.congr rfl hram (fun id' c' hc' hreply => .inl (hconns id' c' hc' hreply)) rfl
  -- nothing happens to the uploads, and the ledger has nothing to note
  have hsame : r.web.uploads = s.uploads →
      (∀ k, Route.ofHeader (cstr hdr) = .begin k → r.reply.status ≠ 200) →
      (∀ k, Route.ofHeader (cstr hdr) ≠ .discard k) →
      (∀ k, Route.ofHeader (cstr hdr) = .chunk k → r.reply.refusesChunk = true) →
      Tidy r.web.uploads conns' ram' (g.heard id (cstr hdr) rest (some r.reply)) ∧
        ∀ k, Grows s.uploads r.web.uploads ram ram' k := by
    intro hu hbegin hdiscard hchunk
    rw [hu]
    refine ⟨?_, fun k => grows_refl rfl hram (h.kept k)⟩
    unfold Ledger.heard
    dsimp only
    rw [Ledger.answered_other hbegin hdiscard hchunk]
    exact hbody
  cases hr with
  | other hkeep _ hbegin hdiscard hchunk =>
    obtain ⟨htidy, hgrows⟩ := hsame hkeep.1 hbegin hdiscard hchunk
    exact ⟨htidy, fun k _ => hgrows k⟩
  | @begun k total generation filename hfit hro _ hweb hstatus _ =>
    rw [hweb]
    constructor
    · unfold Ledger.heard Ledger.answered
      simp only [hro, hstatus, if_true]
      apply hbody.begun
      · rfl
      · rfl
      · intro id' c' ch hc' hch
        exact hno k hro id' c' ch (hconns id' c' hc' (pending_eq_some.1 hch).1).1 hch
    · intro k' hk'
      apply grows_begun h _ hram
      exact fun hsh => hk' (.inl ⟨k, hsh.symm, hro, hstatus⟩)
  | @discarded k hro hweb _ =>
    rw [hweb]
    constructor
    · unfold Ledger.heard Ledger.answered
      simp only [hro]
      exact hbody.discarded k
    · intro k' hk'
      apply grows_discarded h _ hram
      rintro rfl
      exact hk' (.inr hro)
  | bootOnce hro _ hweb | install hro _ hweb | reboot hro _ hweb =>
    obtain ⟨htidy, hgrows⟩ :=
      hsame (by rw [hweb]; rfl) (by simp [hro]) (by simp [hro]) (by simp [hro])
    exact ⟨htidy, fun k _ => hgrows k⟩

theorem Conn.completes_complete {hdr rest : List UInt8} (hreply : c.reply = none)
    (hdone : c.headersDone = false) (hfeed : feedHeader c.reqhdr bs = .complete hdr rest) :
    c.completes bs = some (Route.ofHeader (cstr hdr)) ∧ c.split bs = some (cstr hdr, rest) := by
  simp [Conn.completes, Conn.split, hreply, hdone, hfeed]

theorem Hears.tidy {x : Heard} {w w' : World} {es : List FlashEvent}
    (hh : Hears P L s c bs w x w' es) (hsound : s.uploads.Sound)
    (h : Tidy s.uploads conns w.ram g) (hc : conns id = some c)
    (hone : ∀ k, c.completes bs = some (.begin k) ∨ c.completes bs = some (.chunk k) →
      ∀ id c ch, conns id = some c → c.pending = some ch → ¬ ch.kind.Shares k)
    (hothers : ∀ id', id' ≠ id → conns' id' = conns id')
    (hwaits : ∀ s' c', x = .waits s' c' → conns' id = some c')
    (hsettled : (∀ s' c', x ≠ .waits s' c') → Settled (conns' id))
    (hram : ∀ x < ubiReadbackAddr, ram' x = w'.ram x) :
    Tidy x.web.uploads conns' ram' (match c.split bs with
      | none => g
      | some (h, rest) => g.heard id h rest x.reply) ∧
    ∀ k, ¬ ((∃ k', k'.Shares k ∧ c.completes bs = some (.begin k') ∧
        ∃ reply, x.reply = some reply ∧ reply.status = 200) ∨ c.completes bs = some (.discard k)) →
      Grows s.uploads x.web.uploads w.ram ram' k := by
  cases hh with
  | ignored hidle =>
    refine ⟨?_, fun k _ => grows_refl rfl hram (h.kept k)⟩
    have hconn := hwaits _ _ rfl
    -- whatever the observer takes the bytes for, only the body of this connection is noted
    have hledger : ∃ bs', (match c.split bs with
        | none => g
        | some (h, rest) => g.heard id h rest none) =
          { g with body := Function.update g.body id (g.body id ++ bs') } := by
      cases c.split bs with
      | none => exact ⟨[], by simp⟩
      | some y => exact ⟨y.2, rfl⟩
    obtain ⟨bs', hledger⟩ := hledger
    show Tidy s.uploads conns' ram' (match c.split bs with
      | none => g
      | some (h, rest) => g.heard id h rest none)
    rw [hledger]
    refine h.congr rfl hram ?_ rfl
    intro id' c' hc' hreply
    by_cases hid : id' = id
    · right
      rw [hid, hconn, Option.some.injEq] at hc'
      subst hc'
      rcases hidle with hsome | ⟨hdone, hchunk⟩
      · rw [hreply] at hsome
        exact absurd hsome Bool.false_ne_true
      · refine ⟨hchunk, fun hno => ?_⟩
        rw [hdone] at hno
        exact absurd hno.symm Bool.false_ne_true
    · rw [hothers id' hid] at hc'
      exact .inl ⟨hc', Function.update_of_ne hid _ _⟩
  | @header hdr hreply hdone hfeed =>
    refine ⟨?_, fun k _ => grows_refl rfl hram (h.kept k)⟩
    have hsplit : c.split bs = none := by
      simp [Conn.split, hdone, hfeed]
    have hconn := hwaits _ _ rfl
    rw [hsplit]
    refine h.congr rfl hram ?_ rfl
    intro id' c' hc' hreply'
    by_cases hid : id' = id
    · right
      subst hid
      rw [hconn, Option.some.injEq] at hc'
      subst hc'
      have hnone := h.chunk_eq_none hc hreply hdone
      exact ⟨hnone, fun _ => h.fresh id' c hc hreply hdone⟩
    · rw [hothers id' hid] at hc'
      exact .inl ⟨hc', rfl⟩
  | @overflow hdr hreply hdone hfeed =>
    refine ⟨?_, fun k _ => grows_refl rfl hram (h.kept k)⟩
    have hsplit : c.split bs = none := by
      simp [Conn.split, hdone, hfeed]
    have hset := hsettled (fun _ _ => nofun)
    rw [hsplit]
    refine h.congr rfl hram ?_ rfl
    intro id' c' hc' hreply'
    have hid : id' ≠ id := by
      rintro rfl
      exact hset.ne_some hreply' hc'
    rw [hothers id' hid] at hc'
    exact .inl ⟨hc', rfl⟩
  | @request hdr rest r w' es hreply hdone hfeed hr hcalm =>
    obtain ⟨hro, hsplit⟩ := Conn.completes_complete hreply hdone hfeed
    rw [hsplit, hro]
    rw [hro] at hone
    have hset := hsettled (fun _ _ => nofun)
    obtain ⟨htidy, hgrows⟩ := h.request rest hr (fun k hk => hone k (.inl (congrArg some hk)))
      hothers hset (fun x hx => (hram x hx).trans (hcalm.ram x hx))
    refine ⟨htidy, fun k hk => hgrows k fun hend => hk ?_⟩
    rcases hend with ⟨k', hsh, hbegin, hstatus⟩ | hdiscard
    · exact .inl ⟨k', hsh, congrArg some hbegin, r.reply, rfl, hstatus⟩
    · exact .inr (congrArg some hdiscard)
  | @admitted hdr rest k ch x w₁ w' es es' hreply hdone hfeed hroute hadm hcalm hd =>
    obtain ⟨hro, hsplit⟩ := Conn.completes_complete hreply hdone hfeed
    rw [hsplit]
    rw [hro, hroute] at hone
    have hkind : ch.kind = k := hadm.kind
    subst hkind
    -- first the chunk is announced, then what came with its header is delivered
    have hannounced := (h.of_ram hcalm.ram).announce hsound hc hreply hdone hroute hadm
      (hone ch.kind (.inr rfl))
    have hpending : Conn.pending { c.routed hdr with chunk := some ch } = some ch :=
      pending_eq_some.2 ⟨hreply, rfl⟩
    obtain ⟨htidy, hgrows⟩ := hannounced.delivers (Function.update_self ..) hpending hd
      (fun id' hid => (hothers id' hid).trans (Function.update_of_ne hid ..).symm) hwaits hsettled
      hram
    exact ⟨htidy, fun k _ => (hgrows k).of_ram (h.kept k) hcalm.ram⟩
  | @body ch x w' es hreply hdone hchunk hd =>
    have hsplit : c.split bs = some (cstr c.reqhdr, bs) := by
      simp [Conn.split, hdone]
    rw [hsplit]
    obtain ⟨htidy, hgrows⟩ := h.delivers hc (pending_eq_some.2 ⟨hreply, hchunk⟩) hd hothers hwaits
      hsettled hram
    exact ⟨htidy, fun k _ => hgrows k⟩

/-- **Step.** What an event does to tidy uploads, with one chunk at a time. -/
theorem Board.Moves.tidy {es : List FlashEvent} (hm : b.Moves P L i b' es)
    (hsound : b.host.web.uploads.Sound)
    (h : Tidy b.host.web.uploads b.host.conns b.world.ram g) (hone : OneAtATime b i) :
    Tidy b'.host.web.uploads b'.host.conns b'.world.ram (g.step P L b i) ∧
      ∀ k, ¬ b.Ends P L i k →
        Grows b.host.web.uploads b'.host.web.uploads b.world.ram b'.world.ram k := by
  cases hm with
  | quiet haside hsame hcalm =>
    rw [Ledger.step_aside haside, hsame.uploads]
    refine ⟨h.congr rfl hcalm.ram ?_ rfl, fun k _ => grows_refl rfl hcalm.ram (h.kept k)⟩
    intro id c hc hreply
    rcases hsame.conns id with hid | hid
    · exact .inl ⟨hid ▸ hc, rfl⟩
    · exact absurd hc (Settled.ne_some hid hreply)
  | opened hphase hi hb _ =>
    have hledger : g.step P L b i =
        { g with body := Function.update g.body (b.host.connId + 1) [] } := by
      simp only [Ledger.step, hphase, hi]
    rw [hledger, hb]
    refine ⟨h.congr rfl (fun _ _ => rfl) ?_ rfl,
      fun k _ => grows_refl rfl (fun _ _ => rfl) (h.kept k)⟩
    intro id c hc hreply
    have hc' : Function.update b.host.conns (b.host.connId + 1) (some {}) id = some c := hc
    by_cases hid : id = b.host.connId + 1
    · rw [hid, Function.update_self, Option.some.injEq] at hc'
      subst hc'
      exact .inr ⟨rfl, fun _ => by rw [hid]; exact Function.update_self ..⟩
    · rw [Function.update_of_ne hid] at hc'
      exact .inl ⟨hc', Function.update_of_ne hid ..⟩
  | @restarted probe ok hphase hi hclear hconns hcalm =>
    have hledger : g.step P L b i = { g with accepted := fun _ => [] } := by
      simp only [Ledger.step, hphase, hi]
    rw [hledger, hclear]
    refine ⟨?_, fun k hk => absurd (.inr (.inr ⟨hphase, probe, ok, hi⟩)) hk⟩
    exact (h.of_ram hcalm.ram).cleared hconns
  | @heard id bs p c x w' es₁ es₂ hphase hi hc hx hh hcalm hes hu hothers hwaits hsettled =>
    have hro : b.host.completes i.1 = c.completes bs := by
      simp [Host.completes, hi, hc]
    have hanswer : b.answer P L i = x.reply := by
      simp [Board.answer, hi, hc, hx]
    rw [Ledger.step_recv hphase hi hc hx, hu]
    obtain ⟨htidy, hgrows⟩ := hh.tidy hsound h hc
      (fun k hk id' c' ch hc' hch => hone k hphase (by rwa [hro]) id' ch
        (by rw [Host.pending, hc']; exact hch))
      hothers hwaits hsettled hcalm.ram
    refine ⟨htidy, fun k hk => hgrows k fun hend => hk ?_⟩
    unfold Board.Ends
    rw [hro, hanswer]
    rcases hend with hbegin | hdiscard
    · exact .inl ⟨hphase, hbegin⟩
    · exact .inr (.inl ⟨hphase, hdiscard⟩)

end Event

end Invariant

/-! ## Runs -/

/-- The upload of kind `k` ends with the event, or has not shrunk and is as it was as far as it had
been received. -/
def Board.Continues (P : Platform) (L : FitLib) (b : Board) (i : Input × (ℕ → Outcome))
    (k : UploadKind) : Prop :=
  ¬ b.Ends P L i k →
    Grows b.host.web.uploads (b.step P L i).host.web.uploads b.world.ram (b.step P L i).world.ram k

/-- A complete upload is what was accepted since it was begun: chunks of its generation, each where
the one before ends. -/
def Board.Assembled (b : Board) (g : Ledger) (k : UploadKind) : Prop :=
  (b.host.web.session k).active = false → (b.host.web.session k).total ≠ 0 →
    b.world.ram.slice k.stageAddr (b.host.web.session k).total = bodies (g.accepted k) ∧
    Consecutive 0 (g.accepted k) ∧
    ∀ e ∈ g.accepted k, e.generation = (b.host.web.session k).generation

section Runs

variable (P : Platform) (L : FitLib)

theorem noted_fst (x : Board × Ledger) (is : List (Input × (ℕ → Outcome))) :
    (runFrom (noted P L) x is).1 = runFrom (Board.step P L) x.1 is := by
  induction is generalizing x with
  | nil => rfl
  | cons i is ih => exact ih _

theorem along_noted (ok : Board → Input × (ℕ → Outcome) → Prop) (x : Board × Ledger)
    (is : List (Input × (ℕ → Outcome))) :
    Along (noted P L) (fun y i => ok y.1 i) x is ↔ Along (Board.step P L) ok x.1 is := by
  induction is generalizing x with
  | nil => exact Iff.rfl
  | cons i is ih => exact and_congr Iff.rfl (ih _)

/-- What holds of the board and the ledger in a run with one chunk at a time. -/
def InStep (x : Board × Ledger) : Prop :=
  x.1.host.web.uploads.Sound ∧ Tidy x.1.host.web.uploads x.1.host.conns x.1.world.ram x.2

theorem inStep_noted (x : Board × Ledger) (i : Input × (ℕ → Outcome)) (h : InStep x)
    (hone : OneAtATime x.1 i) : InStep (noted P L x i) :=
  ⟨(board_moves P L x.1 i).step.sound h.1, ((board_moves P L x.1 i).tidy h.1 h.2 hone).1⟩

theorem inStep_powerOn (w : World) : InStep (Board.powerOn w, Ledger.empty) := by
  have hnone : ∀ id c, (Board.powerOn w).host.conns id ≠ some c :=
    fun _ c => (Option.some_ne_none c).symm
  refine ⟨⟨fun _ _ _ _ _ => rfl, fun _ _ _ _ => rfl⟩, ?_, ?_, ?_, fun k => ?_⟩
  · exact fun id _ c _ _ _ hc => absurd hc (hnone id c)
  · exact fun id c hc => absurd hc (hnone id c)
  · exact fun id c _ hc => absurd hc (hnone id c)
  · exact ⟨trivial, rfl, nofun, le_rfl, fun _ => .inl rfl, fun _ _ _ _ => rfl⟩

end Runs

/-! ## Two connections -/

def twoBytes : Upload :=
  fileUpload .firmware [0x61, 0x62] [0x32] (by decide) (by decide) (forall_mem_of_all rfl) (by decide)
    (by decide)

section Crossing

variable {P : Platform} {L : FitLib} {u : Upload} {s : Web} {w : World} {b : Board}

theorem may_firstByte (hn : 1 ≤ u.body.length) (hact : (s.session u.kind).active = true)
    (hgen : u.generation = (s.session u.kind).generation) (htotal : 1 ≠ (s.session u.kind).total)
    (x : UInt8) (tr : List FlashEvent) :
    May exec (fun r w' _ => ∃ y, r = .served y ∧
        y.web = s.setSession ((s.session u.kind).receive 1) ∧
        w' = { w with ram := w.ram.blit u.kind.stageAddr [x] })
      (receiveBody P L s (u.part 1 hn) [x]) w tr := by
  have hstore : storeBody (u.part 1 hn) [x] = writeMem u.kind.stageAddr [x] := rfl
  have hactive : ¬ (!(s.session (u.part 1 hn).kind).active) = true := by
    show ¬ (!(s.session u.kind).active) = true
    rw [hact]
    decide
  have hfull : ¬ ((u.part 1 hn).advance [x].length).received ≠ (u.part 1 hn).contentLen :=
    not_not.2 rfl
  have hsame : ¬ (u.part 1 hn).generation ≠ (s.session (u.part 1 hn).kind).generation :=
    not_not.2 hgen
  have hmore : ¬ (u.part 1 hn).offset + (u.part 1 hn).contentLen =
      (s.session (u.part 1 hn).kind).total := htotal
  rw [receiveBody_eq, if_neg (List.cons_ne_nil _ _), if_neg hactive, hstore]
  apply may_next .ok
  unfold settleBody
  rw [if_neg hfull, if_neg hsame, if_neg hmore]
  exact ⟨_, rfl, rfl, rfl⟩

theorem visible_one : ∀ b ∈ ([0x31] : List UInt8), Visible b := forall_mem_of_all rfl

def oneByte (u : Upload) : List UInt8 :=
  request (asciiBytes (Upload.chunkPath u.kind)) (u.partFields [0x31] visible_one)

theorem feedHeader_oneByte (u : Upload) (rest : List UInt8) :
    feedHeader [] (oneByte u ++ rest) = .complete (oneByte u) rest :=
  feedHeader_request (endpoints_plain _ (Upload.chunkPath_mem u.kind))
    (u.length_partFields visible_one (by decide))

/-- The connection once it has announced that chunk. -/
def announced (u : Upload) (hn : 1 ≤ u.body.length) : Conn :=
  { ({} : Conn).routed (oneByte u) with chunk := some (u.part 1 hn) }

theorem may_announced (hn : 1 ≤ u.body.length) (hs : s.session u.kind = u.session) (bs : List UInt8)
    {Q : Web × Option Conn → World → List FlashEvent → Prop}
    (h : ∀ tr, May exec Q (feedBody P L .more s (announced u hn) bs) w tr) :
    May exec Q (feedBytes P L .more s {} (oneByte u ++ bs)) w [] := by
  have hcstr : cstr (oneByte u) = oneByte u :=
    cstr_request (endpoints_plain _ (Upload.chunkPath_mem u.kind))
  unfold feedBytes
  simp only [Option.isSome_none, Bool.false_eq_true, if_false, feedHeader_oneByte, Conn.header,
    hcstr]
  apply (u.may_announce hs visible_one (by decide) (by decide) (by decide) hn []).bind
  rintro r w' tr ⟨rfl, rfl⟩
  exact h tr

theorem may_delivered (hn : 1 ≤ u.body.length) (hact : (s.session u.kind).active = true)
    (hgen : u.generation = (s.session u.kind).generation) (htotal : 1 ≠ (s.session u.kind).total)
    (x : UInt8) (tr : List FlashEvent) :
    May exec (fun r w' _ => r.1 = s.setSession ((s.session u.kind).receive 1) ∧
        w' = { w with ram := w.ram.blit u.kind.stageAddr [x] })
      (feedBody P L .more s (announced u hn) [x]) w tr := by
  apply (may_firstByte hn hact hgen htotal x tr).bind
  rintro r w' _ ⟨y, rfl, hweb, rfl⟩
  exact ⟨hweb, rfl⟩

theorem reaches_announced (hn : 1 ≤ u.body.length) (hs : s.session u.kind = u.session)
    (hb : Serving s w b) :
    Reaches (Board.step P L) b fun b' => Serving s w b' ∧
      ∃ id ≤ b'.host.connId, b'.host.conns id = some (announced u hn) := by
  apply reaches_accept hb.phase
  refine reaches_recv (b.host.connId + 1) {} (oneByte u ++ []) hb.phase (Function.update_self ..) ?_
  rw [hb.web, hb.world]
  apply may_announced hn hs
  intro tr
  have hwaits : feedBody P L .more s (announced u hn) [] = .ret (s, some (announced u hn)) := rfl
  rw [hwaits, may_ret]
  exact reaches_refl ⟨⟨hb.phase, rfl, rfl⟩, b.host.connId + 1, le_rfl, Function.update_self ..⟩

theorem reaches_delivered (hn : 1 ≤ u.body.length) (htotal : 1 ≠ u.body.length)
    (hs : s.session u.kind = u.session) (hb : Serving s w b) {id : ℕ} (hid : id ≤ b.host.connId)
    {c : Conn} (hc : b.host.conns id = some c) (x : UInt8) :
    Reaches (Board.step P L) b fun b' => b'.host.phase = .net ∧ b'.host.conns id = some c ∧
      b'.host.web = s.setSession (u.session.receive 1) ∧
      b'.world = { w with ram := w.ram.blit u.kind.stageAddr [x] } := by
  apply reaches_accept hb.phase
  refine reaches_recv (b.host.connId + 1) {} (oneByte u ++ [x]) hb.phase
    (Function.update_self ..) ?_
  rw [hb.web, hb.world]
  apply may_announced hn hs
  intro tr
  apply (may_delivered hn (by rw [hs]; rfl) (by rw [hs]; rfl) (by rw [hs]; exact htotal) x tr).mono
  rintro r w' _ ⟨hweb, hworld⟩
  have hne : id ≠ b.host.connId + 1 := by omega
  refine reaches_refl ⟨hb.phase, ?_, by rw [← hs]; exact hweb, hworld⟩
  show Function.update (Function.update b.host.conns _ _) _ _ id = _
  rw [Function.update_of_ne hne, Function.update_of_ne hne, hc]

theorem first_byte_lands (hn : 1 ≤ u.body.length) (htotal : 1 ≠ u.body.length) {id : ℕ}
    (hphase : b.host.phase = .net) (hconn : b.host.conns id = some (announced u hn))
    (hs : b.host.web.session u.kind = u.session.receive 1) (x : UInt8) :
    ∃ outs, (b.step P L (.recv id [x] .more, outs)).world.ram =
      b.world.ram.blit u.kind.stageAddr [x] := by
  have hmay : May exec (fun _ w' _ => w'.ram = b.world.ram.blit u.kind.stageAddr [x])
      (b.host.react P L (.recv id [x] .more)) b.world [] := by
    simp only [Host.react, hphase, Host.network, Host.onConn, hconn]
    apply May.bind (may_delivered hn (by rw [hs]; rfl) (by rw [hs]; rfl) (by rw [hs]; exact htotal)
      x [])
    rintro r w' _ ⟨-, rfl⟩
    rfl
  exact hmay.run_of

theorem announced_not_ends (hn : 1 ≤ u.body.length) {id : ℕ} (hphase : b.host.phase = .net)
    (hconn : b.host.conns id = some (announced u hn)) (bs : List UInt8) (p : Pump)
    (outs : ℕ → Outcome) (k : UploadKind) : ¬ b.Ends P L (.recv id bs p, outs) k := by
  have hnone : b.host.completes (.recv id bs p) = none := by
    simp [Host.completes, hconn, Conn.completes, announced, Conn.routed]
  rintro (⟨-, k', -, hro, -⟩ | ⟨-, hro⟩ | ⟨hexited, -⟩)
  · rw [hnone] at hro
    exact absurd hro.symm (Option.some_ne_none _)
  · rw [hnone] at hro
    exact absurd hro.symm (Option.some_ne_none _)
  · rw [hphase] at hexited
    exact absurd hexited (by decide)

end Crossing

end UrsusBoot
