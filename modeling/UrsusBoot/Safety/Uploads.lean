import UrsusBoot.Safety.WebEngines
import UrsusBoot.Web.Scratch

/-!
# What an event does to the uploads

What a request, bytes for a chunk and bytes on a connection do to the uploads, case by case, and
that nothing else happens (`hears_records`, `board_moves`).
-/

namespace UrsusBoot

open Prog

structure Uploads where
  session : (k : UploadKind) → UploadSession k
  img : ImageState
  expertImg : ImageState
  preloaderValid : Bool
  fipUploadValid : Bool
  vanillaUploadValid : Bool

def Web.uploads (s : Web) : Uploads :=
  ⟨s.session, s.img, s.expertImg, s.preloaderValid, s.fipUploadValid, s.vanillaUploadValid⟩

structure Latch where
  stop : Bool
  expertBoot : Bool
  factoryInstall : Bool
  reboot : Bool
  responseQueued : Bool
  responseQueuedAt : ℕ
  requestAt : ℕ
  networkFailed : Bool

def Web.latch (s : Web) : Latch :=
  ⟨s.stop, s.pendingExpertBoot, s.pendingFactoryInstall, s.pendingReboot, s.rebootResponseQueued,
    s.rebootResponseQueuedAt, s.rebootRequestAt, s.networkFailed⟩

def Web.Keeps (s s' : Web) : Prop := s'.uploads = s.uploads ∧ s'.latch = s.latch

theorem Web.Keeps.refl (s : Web) : s.Keeps s := ⟨rfl, rfl⟩

/-! ## Bytes on a connection -/

/-- What bytes on a connection come to: it stays as it is, it is dropped, or it is answered. -/
inductive Heard
  | waits (web : Web) (conn : Conn)
  | drops (web : Web) (conn : Conn)
  | answers (result : Served) (conn : Conn)

def Heard.web : Heard → Web
  | .waits s _ => s
  | .drops s _ => s
  | .answers r _ => r.web

/-- The reply `ursus_http_start_response` is called with. -/
def Heard.reply : Heard → Option Reply
  | .answers r _ => some r.reply
  | _ => none

def Fed.heard (c : Conn) : Fed → Heard
  | .more s ch => .waits s { c with chunk := some ch }
  | .abort s => .drops s c
  | .served r => .answers r c

def Conn.routed (c : Conn) (hdr : List UInt8) : Conn := { c with reqhdr := hdr, headersDone := true }

/-- `ursus_feed_bytes` on the body of a request, up to the response. -/
def hearsBody (P : Platform) (L : FitLib) (s : Web) (c : Conn) (bs : List UInt8) : FlashProg Heard :=
  match c.chunk with
  | none => return .waits s c
  | some ch => do return (← receiveBody P L s ch bs).heard (c.took ch bs.length)

/-- `ursus_feed_bytes`, up to the response. -/
def hears (P : Platform) (L : FitLib) (s : Web) (c : Conn) (bs : List UInt8) : FlashProg Heard :=
  if c.reply.isSome then return .waits s c
  else if c.headersDone then hearsBody P L s c bs
  else
    match feedHeader c.reqhdr bs with
    | .more hdr => return .waits s { c with reqhdr := hdr }
    | .overflow hdr => return .drops s { c with reqhdr := hdr }
    | .complete hdr rest => do
      match ← routeReady P (cstr hdr) s with
      | .served r => return .answers r (c.routed hdr)
      | .upload ch => hearsBody P L s { c.routed hdr with chunk := some ch } rest

/-- The rest of it: the response is started, or the connection is released. -/
def Heard.finish (p : Pump) : Heard → FlashProg (Web × Option Conn)
  | .waits s c => return (s, some c)
  | .drops s c => return (s.release c, none)
  | .answers r c => startResponse p r c

theorem feedBody_eq (P : Platform) (L : FitLib) (p : Pump) (s : Web) (c : Conn) (bs : List UInt8) :
    feedBody P L p s c bs = (hearsBody P L s c bs).bind (Heard.finish p) := by
  unfold feedBody hearsBody
  cases c.chunk with
  | none => rfl
  | some ch =>
    simp only [bind_def, pure_def, bind_bind]
    congr 1
    funext x
    cases x <;> rfl

/-- **The two parts of `ursus_feed_bytes`.** -/
theorem feedBytes_eq (P : Platform) (L : FitLib) (p : Pump) (s : Web) (c : Conn) (bs : List UInt8) :
    feedBytes P L p s c bs = (hears P L s c bs).bind (Heard.finish p) := by
  unfold feedBytes hears
  by_cases hreply : c.reply.isSome = true
  · rw [if_pos hreply, if_pos hreply]
    rfl
  rw [if_neg hreply, if_neg hreply]
  by_cases hdone : c.headersDone = true
  · rw [if_pos hdone, if_pos hdone]
    exact feedBody_eq P L p s c bs
  rw [if_neg hdone, if_neg hdone]
  cases feedHeader c.reqhdr bs with
  | more hdr => rfl
  | overflow hdr => rfl
  | complete hdr rest =>
    simp only [bind_def, bind_bind]
    show (routeReady P (cstr hdr) s).bind _ = (routeReady P (cstr hdr) s).bind _
    congr 1
    funext x
    cases x with
    | served r => rfl
    | upload ch => exact feedBody_eq P L p s _ rest

/-! ## Commands -/

structure Calm (w w' : World) (es : List FlashEvent) : Prop where
  ram : ∀ x < ubiReadbackAddr, w'.ram x = w.ram x
  spares : ∀ e ∈ es, e.cmd.SparesStage

theorem Calm.trans {w w' w'' : World} {es es' : List FlashEvent} (h : Calm w w' es)
    (h' : Calm w' w'' es') : Calm w w'' (es ++ es') := by
  constructor
  · intro x hx
    exact (h'.ram x hx).trans (h.ram x hx)
  · intro e he
    rcases List.mem_append.1 he with he | he
    · exact h.spares e he
    · exact h'.spares e he

theorem calm_run {α : Type} {p : FlashProg α} (h : Uses Cmd.SparesStage p) (os : ℕ → Outcome)
    (w : World) : Calm w (run exec p os w).world (run exec p os w).trace := by
  have hspec := (spec_sparesStage (A := fun _ => True) h w).run_of os fun _ _ => trivial
  exact ⟨hspec.2, hspec.1⟩

theorem records_calm {α : Type} {Q : α → Prop} {p : FlashProg α} (h : Uses Cmd.SparesStage p)
    (hy : Gives Q p) (w : World) (tr : List FlashEvent) :
    Records exec (fun _ _ => True)
      (fun a w' tr' => Q a ∧ ∃ es, tr' = tr ++ es ∧ Calm w w' es) p w tr := by
  apply ((records_run p w tr).and_spec (hy w)).mono
  rintro a w' tr' ⟨⟨os, rfl, rfl, rfl⟩, ha⟩
  exact ⟨ha, _, rfl, calm_run h os w⟩

def Chunk.dest (ch : Chunk) : ℕ := ch.addr + ch.offset + ch.received

/-- The bytes of a chunk were stored, and nothing else in the windows. -/
structure Stored (ch : Chunk) (bs : List UInt8) (w w' : World) (es : List FlashEvent) : Prop where
  ram : ∀ x < ubiReadbackAddr, w'.ram x = w.ram.blit ch.dest (bs.take (ch.take bs.length)) x
  writes : ∀ e ∈ es, ∀ x < ubiReadbackAddr, e.cmd.WritesRam x →
    ch.dest ≤ x ∧ x < ch.dest + ch.take bs.length

theorem Stored.calm {ch : Chunk} {bs : List UInt8} {w w' w'' : World} {es es' : List FlashEvent}
    (h : Stored ch bs w w' es) (h' : Calm w' w'' es') : Stored ch bs w w'' (es ++ es') := by
  constructor
  · intro x hx
    exact (h'.ram x hx).trans (h.ram x hx)
  · intro e he x hx hw
    rcases List.mem_append.1 he with he | he
    · exact h.writes e he x hx hw
    · exact absurd hw (h'.spares e he x hx)

theorem Stored.none {ch : Chunk} {bs : List UInt8} (h : ch.take bs.length = 0) (w : World) :
    Stored ch bs w w [] := by
  constructor
  · intro x _
    rw [h, List.take_zero, Mem.blit_nil]
  · intro e he
    exact nomatch he

theorem Stored.writeMem (ch : Chunk) (bs : List UInt8) (o : Outcome) (w : World) :
    Stored ch bs w (exec (.writeMem ch.dest (bs.take (ch.take bs.length))) o w).2
      [⟨.writeMem ch.dest (bs.take (ch.take bs.length)), o, w⟩] := by
  constructor
  · intro x _
    rfl
  · intro e he x _ hw
    rw [List.mem_singleton] at he
    subst he
    have hin : ch.dest ≤ x ∧ x < ch.dest + (bs.take (ch.take bs.length)).length := hw
    rw [List.length_take] at hin
    exact ⟨hin.1, by omega⟩

/-! ## Requests -/

/-- The refusal of `ursus_upload_reject`: no other reply has a field `expected`. -/
def Reply.refusesChunk (r : Reply) : Bool :=
  match r.body with
  | .json fields => fields.any fun f => f.1 == "expected"
  | _ => false

/-- What a request for `ro` does. -/
inductive Requested (ro : Route) (s : Web) : Served → Prop
  | other {r : Served} : s.Keeps r.web → r.stopAfterResponse = false →
      (∀ k, ro = .begin k → r.reply.status ≠ 200) → (∀ k, ro ≠ .discard k) →
      (∀ k, ro = .chunk k → r.reply.refusesChunk = true) → Requested ro s r
  | begun {r : Served} {k : UploadKind} {total : ℕ} {generation filename : List UInt8}
      {hfit : total ≤ k.maxLen} : ro = .begin k → 0 < total →
      r.web = s.begun (.fresh k total generation filename hfit) → r.reply.status = 200 →
      r.stopAfterResponse = false → Requested ro s r
  | discarded {r : Served} {k : UploadKind} : ro = .discard k → r.web = s.discarded k →
      r.stopAfterResponse = false → Requested ro s r
  | bootOnce {r : Served} : ro = .bootOnce → s.expertImg.bootableFit = true →
      r.web = { s with pendingExpertBoot := true } → r.stopAfterResponse = true →
      r.rebootAfterResponse = false → Requested ro s r
  | install {r : Served} : ro = .installStockLayout → s.img.StockReady s.currentLayout →
      r.web = { s with pendingFactoryInstall := true } → r.stopAfterResponse = true →
      r.rebootAfterResponse = false → Requested ro s r
  | reboot {r : Served} {now : ℕ} : ro = .reboot → s.engines.rebootGate = true →
      r.web = { s with pendingReboot := true, rebootRequestAt := now } →
      r.stopAfterResponse = true → r.rebootAfterResponse = true → Requested ro s r

/-- What is known of a chunk that is admitted on the header `h`. -/
structure Admits (h : List UInt8) (s : Web) (k : UploadKind) (ch : Chunk) : Prop where
  kind : ch.kind = k
  length_eq : ch.contentLen = (parseHeaderUlong h "Content-Length").getD 0
  offset_eq : ch.offset = (parseHeaderUlong h "X-Ursus-Offset").getD 0
  generation_eq : ch.generation = (parseHeaderValue h "X-Ursus-Generation" generationMax).getD []
  active : (s.session k).active = true
  generation : ch.generation = (s.session k).generation
  total : ch.total = (s.session k).total
  offset : ch.offset = (s.session k).received
  fits : ch.offset + ch.contentLen ≤ (s.session k).total
  nonempty : 0 < ch.contentLen
  received : ch.received = 0

section Requests

variable (P : Platform) (h : List UInt8) (s : Web)

/-- A request that starts an engine or changes nothing. -/
abbrev Passive (r : Served) : Prop := s.Keeps r.web ∧ r.stopAfterResponse = false

theorem Requested.passive {ro : Route} {r : Served} (hr : Passive s r) (hbegin : ∀ k, ro ≠ .begin k)
    (hdiscard : ∀ k, ro ≠ .discard k) (hchunk : ∀ k, ro ≠ .chunk k) : Requested ro s r :=
  .other hr.1 hr.2 (fun k hk => absurd hk (hbegin k)) hdiscard fun k hk => absurd hk (hchunk k)

theorem beginUpload_requested (k : UploadKind) :
    Gives (Requested (.begin k) s) (beginUpload k h s) := by
  have hreject : ∀ {status rc reason expected got}, status ≠ 200 →
      Gives (Requested (.begin k) s)
        (uploadReject s status rc reason expected got) := by
    intro status rc reason expected got hstatus
    apply yields_then
    intro _
    exact yields_ret (.other (.refl s) rfl (fun _ _ => hstatus) (fun _ => nofun) fun _ => nofun)
  unfold beginUpload
  dsimp only
  split_ifs with hzero hmax
  · exact hreject (by decide)
  · exact hreject (by decide)
  · split
    · exact hreject (by decide)
    · split
      · exact hreject (by decide)
      · apply yields_then
        intro _
        exact yields_ret (.begun rfl (Nat.pos_of_ne_zero hzero) rfl rfl rfl)

theorem prepareChunk_admits (k : UploadKind) :
    Gives
      (fun r => (∀ x, r = .error x → Passive s x ∧ x.reply.refusesChunk = true) ∧
        ∀ ch, r = .ok ch → Admits h s k ch) (prepareChunk k h s) := by
  have hrefuse : ∀ status rc reason expected got, Gives
      (fun r : Except Served Chunk =>
        (∀ x, r = .error x → Passive s x ∧ x.reply.refusesChunk = true) ∧
          ∀ ch, r = .ok ch → Admits h s k ch)
      ((uploadReject s status rc reason expected got).bind fun x => Prog.ret (.error x)) := by
    intro status rc reason expected got
    have hpassive : Gives
        (fun x => Passive s x ∧ x.reply.refusesChunk = true)
        (uploadReject s status rc reason expected got) :=
      yields_then fun _ => yields_ret ⟨⟨.refl s, rfl⟩, rfl⟩
    apply yields_bind hpassive
    intro x hx
    apply yields_ret
    constructor
    · rintro y ⟨⟩
      exact hx
    · rintro ch ⟨⟩
  unfold prepareChunk
  dsimp only
  split
  · exact hrefuse _ _ _ _ _
  rename_i hlen
  split
  · rename_i hoffset htot hgeneration
    split_ifs with hact hgen htotal hoff hend hfit
    · exact hrefuse _ _ _ _ _
    · exact hrefuse _ _ _ _ _
    · exact hrefuse _ _ _ _ _
    · exact hrefuse _ _ _ _ _
    · exact hrefuse _ _ _ _ _
    · exact hrefuse _ _ _ _ _
    · apply yields_ret
      constructor
      · rintro x ⟨⟩
      · rintro ch ⟨⟩
        have hpos := not_or.1 hlen
        have hin := not_or.1 hend
        have htot := not_not.1 htotal
        exact ⟨rfl, rfl, by rw [hoffset]; rfl, by rw [hgeneration]; rfl, by simpa using hact,
          not_not.1 hgen, htot, not_not.1 hoff, by dsimp only; omega, Nat.pos_of_ne_zero hpos.1, rfl⟩
  · exact hrefuse _ _ _ _ _

theorem installUbi_passive : Gives (Passive s) (installUbi h s) := by
  have hret : ∀ {r : Served}, s.Keeps r.web → r.stopAfterResponse = false →
      Gives (Passive s) (Prog.ret r : FlashProg Served) :=
    fun hk hr => yields_ret ⟨hk, hr⟩
  apply yields_ite
  · intro _
    exact hret (.refl s) rfl
  intro _
  apply yields_ite
  · intro _
    exact hret (.refl s) rfl
  intro _
  apply yields_ite
  · intro _
    apply yields_ite
    · intro _
      exact hret (.refl s) rfl
    intro _
    apply yields_ite
    · intro _
      exact hret (.refl s) rfl
    intro _
    apply yields_then
    intro r
    apply yields_ite
    · intro _
      exact hret ⟨rfl, rfl⟩ rfl
    · intro _
      apply yields_then
      intro _
      exact hret ⟨rfl, rfl⟩ rfl
  intro _
  apply yields_ite
  · intro _
    exact hret (.refl s) rfl
  intro _
  apply yields_ite
  · intro _
    exact hret (.refl s) rfl
  intro _
  apply yields_ite
  · intro _
    exact hret ⟨rfl, rfl⟩ rfl
  · intro _
    apply yields_then
    intro _
    exact hret ⟨rfl, rfl⟩ rfl

theorem resetSettingsRequest_passive :
    Gives (Passive s) (resetSettingsRequest h s) := by
  have hreply : ∀ ret, Gives (Passive s) (resetSettingsReply s ret) := by
    intro ret
    apply yields_then
    intro _
    refine yields_exit ⟨.refl s, rfl⟩ fun _ => ?_
    exact yields_ret ⟨.refl s, rfl⟩
  refine yields_exit ⟨.refl s, rfl⟩ fun _ => ?_
  refine yields_exit ⟨.refl s, rfl⟩ fun _ => ?_
  split
  · exact yields_then hreply
  · exact yields_then hreply
  · exact yields_ret ⟨.refl s, rfl⟩

theorem fipRequest_passive (q : FipRequest) :
    Gives (Passive s) (fipRequest P q h s) := by
  refine yields_exit ⟨.refl s, rfl⟩ fun _ => ?_
  refine yields_exit ⟨.refl s, rfl⟩ fun _ => ?_
  refine yields_exit ⟨.refl s, rfl⟩ fun _ => ?_
  apply yields_then
  intro r
  refine yields_exit ⟨⟨rfl, rfl⟩, rfl⟩ fun _ => ?_
  apply yields_then
  intro _
  exact yields_ret ⟨⟨rfl, rfl⟩, rfl⟩

theorem bootOnce_requested :
    Gives (Requested .bootOnce s) (bootOnce s) := by
  refine yields_exit (.passive s ⟨.refl s, rfl⟩ (fun _ => nofun) (fun _ => nofun) fun _ => nofun)
    fun hboot => ?_
  apply yields_then
  intro _
  exact yields_ret (.bootOnce rfl (by simpa using hboot) rfl rfl rfl)

theorem installStockLayout_requested :
    Gives (Requested .installStockLayout s) (installStockLayout h s) := by
  refine yields_exit (.passive s ⟨.refl s, rfl⟩ (fun _ => nofun) (fun _ => nofun) fun _ => nofun)
    fun _ => ?_
  refine yields_exit (.passive s ⟨.refl s, rfl⟩ (fun _ => nofun) (fun _ => nofun) fun _ => nofun)
    fun hready => ?_
  apply yields_then
  intro _
  exact yields_ret (.install rfl (not_not.1 hready) rfl rfl rfl)

theorem rebootRequest_requested :
    Gives (Requested .reboot s) (rebootRequest h s) := by
  apply yields_then
  intro _
  apply yields_ite
  · intro _
    apply yields_then
    intro _
    exact yields_ret (.passive s ⟨.refl s, rfl⟩ (fun _ => nofun) (fun _ => nofun) fun _ => nofun)
  · intro hgate
    apply yields_then
    intro now
    apply yields_then
    intro _
    have hopen : s.engines.rebootGate = true := by
      simp only [Bool.or_eq_true, Bool.not_eq_true', not_or, Bool.not_eq_false] at hgate
      exact hgate.1
    exact yields_ret (.reboot rfl hopen rfl rfl rfl)

/-- **What a request does**, a chunk apart. -/
theorem routeReady_requested :
    Gives (fun x => (∀ r, x = .served r → Requested (Route.ofHeader h) s r) ∧
      ∀ ch, x = .upload ch → ∃ k, Route.ofHeader h = .chunk k ∧ Admits h s k ch)
      (routeReady P h s) := by
  have hserve : ∀ {p : FlashProg Served},
      Gives (Requested (Route.ofHeader h) s) p →
      Gives
        (fun x => (∀ r, x = .served r → Requested (Route.ofHeader h) s r) ∧
          ∀ ch, x = .upload ch → ∃ k, Route.ofHeader h = .chunk k ∧ Admits h s k ch)
        (p.bind fun x => Prog.ret (Routed.served x)) := by
    intro p hp
    apply yields_bind hp
    intro x hx
    apply yields_ret
    constructor
    · rintro y ⟨⟩
      exact hx
    · rintro ch ⟨⟩
  have hpassive : ∀ {p : FlashProg Served}, (∀ k, Route.ofHeader h ≠ .begin k) →
      (∀ k, Route.ofHeader h ≠ .discard k) → (∀ k, Route.ofHeader h ≠ .chunk k) →
      Gives (Passive s) p →
      Gives (Requested (Route.ofHeader h) s) p :=
    fun hb hd hc hp => hp.mono fun _ hr => .passive s hr hb hd hc
  unfold routeReady
  split
  · rename_i page hro
    apply yields_ret
    rw [hro]
    constructor
    · rintro r ⟨⟩
      exact .passive s ⟨.refl s, rfl⟩ (fun _ => nofun) (fun _ => nofun) fun _ => nofun
    · rintro ch ⟨⟩
  · rename_i k hro
    apply hserve
    rw [hro]
    apply yields_then
    intro _
    exact yields_ret (.discarded rfl rfl rfl)
  · rename_i k hro
    apply hserve
    rw [hro]
    exact beginUpload_requested h s k
  · rename_i k hro
    apply yields_bind (prepareChunk_admits h s k)
    intro r hr
    cases r with
    | error x =>
      apply yields_ret
      rw [hro]
      constructor
      · rintro y ⟨⟩
        obtain ⟨⟨hkeep, hstop⟩, hrefuses⟩ := hr.1 x rfl
        exact .other hkeep hstop (fun _ => nofun) (fun _ => nofun) fun _ _ => hrefuses
      · rintro ch ⟨⟩
    | ok ch =>
      apply yields_ret
      constructor
      · rintro y ⟨⟩
      · rintro ch' ⟨⟩
        exact ⟨k, hro, hr.2 ch rfl⟩
  · rename_i hro
    apply hserve
    rw [hro]
    exact bootOnce_requested s
  · rename_i hro
    apply hserve
    rw [hro]
    exact installStockLayout_requested h s
  · rename_i hro
    exact hserve (hpassive (by simp [hro]) (by simp [hro]) (by simp [hro]) (installUbi_passive h s))
  · rename_i hro
    exact hserve (hpassive (by simp [hro]) (by simp [hro]) (by simp [hro]) (resetSettingsRequest_passive h s))
  · rename_i hro
    exact hserve (hpassive (by simp [hro]) (by simp [hro]) (by simp [hro]) (fipRequest_passive P h s _))
  · rename_i hro
    exact hserve (hpassive (by simp [hro]) (by simp [hro]) (by simp [hro]) (fipRequest_passive P h s _))
  · rename_i hro
    apply hserve
    rw [hro]
    exact rebootRequest_requested h s
  · rename_i hro
    apply yields_ret
    rw [hro]
    constructor
    · rintro r ⟨⟩
      exact .passive s ⟨.refl s, rfl⟩ (fun _ => nofun) (fun _ => nofun) fun _ => nofun
    · rintro ch ⟨⟩

end Requests

/-! ## The body of a chunk -/

def Web.advanced (s : Web) (ch : Chunk) : UploadSession ch.kind :=
  (s.session ch.kind).receive (ch.offset + ch.contentLen)

inductive Delivers (P : Platform) (L : FitLib) (s : Web) (ch : Chunk) (bs : List UInt8) (w : World) :
    Fed → World → List FlashEvent → Prop
  | nothing : bs = [] → Delivers P L s ch bs w (.more s ch) w []
  | refused : bs ≠ [] → (s.session ch.kind).active = false → Delivers P L s ch bs w (.abort s) w []
  | part {w' : World} {es : List FlashEvent} : (s.session ch.kind).active = true →
      (ch.advance bs.length).received ≠ ch.contentLen → Stored ch bs w w' es →
      Delivers P L s ch bs w (.more s (ch.advance bs.length)) w' es
  | stale {r : Served} {w' : World} {es : List FlashEvent} : (s.session ch.kind).active = true →
      (ch.advance bs.length).received = ch.contentLen →
      ch.generation ≠ (s.session ch.kind).generation → Stored ch bs w w' es → r.web = s →
      r.reply.refusesChunk = true → r.stopAfterResponse = false →
      Delivers P L s ch bs w (.served r) w' es
  | accepted {r : Served} {w' : World} {es : List FlashEvent} :
      (s.session ch.kind).active = true → (ch.advance bs.length).received = ch.contentLen →
      ch.generation = (s.session ch.kind).generation →
      ch.offset + ch.contentLen ≠ (s.session ch.kind).total → Stored ch bs w w' es →
      r.web = s.setSession (s.advanced ch) → r.reply.refusesChunk = false →
      r.stopAfterResponse = false → Delivers P L s ch bs w (.served r) w' es
  /-- The last chunk: the note that the upload is complete, then its validation. -/
  | completed {r : Served} {w₁ w' : World} {es es' : List FlashEvent} {o : Outcome}
      {os : ℕ → Outcome} : (s.session ch.kind).active = true →
      (ch.advance bs.length).received = ch.contentLen →
      ch.generation = (s.session ch.kind).generation →
      ch.offset + ch.contentLen = (s.session ch.kind).total → Stored ch bs w w₁ es →
      run exec (completeUpload P L (s.setSession (s.advanced ch).close) ch.kind) os w₁ =
        ⟨r, w', es'⟩ →
      r.reply.refusesChunk = false → r.stopAfterResponse = false →
      Delivers P L s ch bs w (.served r) w'
        (es ++ ⟨.logf (.uploadComplete ch.kind.name (s.advanced ch).generation
          (s.advanced ch).filename (s.advanced ch).total (s.advanced ch).received), o, w₁⟩ :: es')

section Body

variable (P : Platform) (L : FitLib) (s : Web)

theorem uploadReject_refuses (status : ℕ) (rc : ReasonClass) (reason : String) (expected got : ℕ) :
    Gives
      (fun r => r.web = s ∧ r.reply.refusesChunk = true ∧ r.stopAfterResponse = false)
      (uploadReject s status rc reason expected got) := by
  apply yields_then
  intro _
  exact yields_ret ⟨rfl, rfl, rfl⟩

theorem completeUpload_takes (k : UploadKind) :
    Gives (fun r => r.reply.refusesChunk = false ∧ r.stopAfterResponse = false)
      (completeUpload P L s k) := by
  cases k with
  | firmware =>
    apply yields_then
    intro r
    exact yields_ret ⟨rfl, rfl⟩
  | initramfs =>
    apply yields_then
    intro r
    exact yields_ret ⟨rfl, rfl⟩
  | ubiPreloader =>
    apply yields_then
    intro r
    exact yields_ret ⟨rfl, rfl⟩
  | ursusFip =>
    apply yields_then
    intro ret
    exact yields_ret ⟨rfl, rfl⟩
  | vanillaFip =>
    apply yields_then
    intro ret
    exact yields_ret ⟨rfl, rfl⟩

def storeBody (ch : Chunk) (bs : List UInt8) : FlashProg Unit :=
  if ch.take bs.length ≠ 0 then writeMem ch.dest (bs.take (ch.take bs.length)) else return ()

/-- `ursus_feed_bytes` once they are there. -/
def settleBody (ch : Chunk) (n : ℕ) : FlashProg Fed :=
  if (ch.advance n).received ≠ ch.contentLen then return .more s (ch.advance n)
  else if ch.generation ≠ (s.session ch.kind).generation then do
    return .served (← uploadReject s 409 .uploadIncomplete
      "upload generation changed while receiving chunk" (s.session ch.kind).received ch.offset)
  else if ch.offset + ch.contentLen = (s.session ch.kind).total then do
    logf (.uploadComplete ch.kind.name (s.advanced ch).generation (s.advanced ch).filename
      (s.advanced ch).total (s.advanced ch).received)
    return .served (← completeUpload P L (s.setSession (s.advanced ch).close) ch.kind)
  else
    let u := s.advanced ch
    return .served ⟨⟨200, .json [("result", .str "CHUNK_OK"), ("reason_class", .str "OK"),
      ("complete", .bool false), ("generation", .bytes u.generation),
      ("filename", .bytes u.filename), ("received", .num u.received),
      ("declared_size", .num u.total)]⟩, s.setSession u, false, false⟩

theorem receiveBody_eq (ch : Chunk) (bs : List UInt8) :
    receiveBody P L s ch bs =
      if bs = [] then Prog.ret (.more s ch)
      else if (!(s.session ch.kind).active) = true then Prog.ret (.abort s)
      else (storeBody ch bs).bind fun _ => settleBody P L s ch bs.length := by
  by_cases hbs : bs = []
  · rw [if_pos hbs]
    unfold receiveBody
    rw [if_pos hbs]
    rfl
  rw [if_neg hbs]
  unfold receiveBody
  rw [if_neg hbs]
  by_cases hact : (!(s.session ch.kind).active) = true
  · rw [if_pos hact, if_pos hact]
    rfl
  rw [if_neg hact, if_neg hact]
  by_cases hn : ch.take bs.length ≠ 0
  · rw [storeBody, if_pos hn, if_pos hn]
    rfl
  · rw [storeBody, if_neg hn, if_neg hn]
    rfl

theorem storeBody_records (ch : Chunk) (bs : List UInt8) (w : World) (tr : List FlashEvent) :
    Records exec (fun _ _ => True) (fun _ w' tr' => ∃ es, tr' = tr ++ es ∧ Stored ch bs w w' es)
      (storeBody ch bs) w tr := by
  apply records_ite
  · intro _ o
    exact ⟨trivial, _, rfl, .writeMem ch bs o w⟩
  · intro hn
    exact ⟨[], (List.append_nil tr).symm, .none (not_not.1 hn) w⟩

/-- **Bytes for a chunk.** -/
theorem receiveBody_records (ch : Chunk) (bs : List UInt8) (w : World) (tr : List FlashEvent) :
    Records exec (fun _ _ => True)
      (fun x w' tr' => ∃ es, tr' = tr ++ es ∧ Delivers P L s ch bs w x w' es)
      (receiveBody P L s ch bs) w tr := by
  rw [receiveBody_eq]
  apply records_ite
  · intro hbs
    exact ⟨[], (List.append_nil tr).symm, .nothing hbs⟩
  intro hbs
  apply records_ite
  · intro hact
    exact ⟨[], (List.append_nil tr).symm, .refused hbs (by simpa using hact)⟩
  intro hact
  have hon : (s.session ch.kind).active = true := by simpa using hact
  apply (storeBody_records ch bs w tr).bind
  rintro _ w₁ _ ⟨es, rfl, hst⟩
  apply records_ite
  · intro hpart
    exact ⟨es, rfl, .part hon hpart hst⟩
  intro hfull
  have hfull' : (ch.advance bs.length).received = ch.contentLen := not_not.1 hfull
  apply records_ite
  · intro hgen
    apply (records_calm (sparesStage_uploadReject s _ _ _ _ _) (uploadReject_refuses s _ _ _ _ _)
      w₁ _).bind
    rintro r w' _ ⟨⟨hweb, hreply, hstop⟩, es', rfl, hcalm⟩
    exact ⟨es ++ es', by rw [List.append_assoc],
      .stale hon hfull' hgen (hst.calm hcalm) hweb hreply hstop⟩
  intro hgen
  have hgen' : ch.generation = (s.session ch.kind).generation := not_not.1 hgen
  apply records_ite
  · intro hdone o
    refine ⟨trivial, ?_⟩
    show Records exec _ _
      ((completeUpload P L (s.setSession (s.advanced ch).close) ch.kind).bind _) w₁ _
    apply ((records_run _ w₁ _).and_spec (completeUpload_takes P L _ _ w₁)).bind
    rintro r w' _ ⟨⟨os, rfl, rfl, rfl⟩, hreply, hstop⟩
    refine ⟨_, ?_, .completed (o := o) hon hfull' hgen' hdone hst rfl hreply hstop⟩
    simp only [List.append_assoc, List.singleton_append]
  · intro hdone
    exact ⟨es, rfl, .accepted hon hfull' hgen' hdone hst rfl rfl rfl⟩

end Body

/-! ## Bytes on a connection -/

inductive Hears (P : Platform) (L : FitLib) (s : Web) (c : Conn) (bs : List UInt8) (w : World) :
    Heard → World → List FlashEvent → Prop
  | ignored : c.reply.isSome = true ∨ c.headersDone = true ∧ c.chunk = none →
      Hears P L s c bs w (.waits s c) w []
  | header {hdr : List UInt8} : c.reply = none → c.headersDone = false →
      feedHeader c.reqhdr bs = .more hdr → Hears P L s c bs w (.waits s { c with reqhdr := hdr }) w []
  | overflow {hdr : List UInt8} : c.reply = none → c.headersDone = false →
      feedHeader c.reqhdr bs = .overflow hdr →
      Hears P L s c bs w (.drops s { c with reqhdr := hdr }) w []
  | request {hdr rest : List UInt8} {r : Served} {w' : World} {es : List FlashEvent} :
      c.reply = none → c.headersDone = false → feedHeader c.reqhdr bs = .complete hdr rest →
      Requested (Route.ofHeader (cstr hdr)) s r → Calm w w' es →
      Hears P L s c bs w (.answers r (c.routed hdr)) w' es
  | admitted {hdr rest : List UInt8} {k : UploadKind} {ch : Chunk} {x : Fed} {w₁ w' : World}
      {es es' : List FlashEvent} : c.reply = none → c.headersDone = false →
      feedHeader c.reqhdr bs = .complete hdr rest → Route.ofHeader (cstr hdr) = .chunk k →
      Admits (cstr hdr) s k ch → Calm w w₁ es → Delivers P L s ch rest w₁ x w' es' →
      Hears P L s c bs w (x.heard ((c.routed hdr).took ch rest.length)) w' (es ++ es')
  | body {ch : Chunk} {x : Fed} {w' : World} {es : List FlashEvent} : c.reply = none →
      c.headersDone = true → c.chunk = some ch → Delivers P L s ch bs w x w' es →
      Hears P L s c bs w (x.heard (c.took ch bs.length)) w' es

section Hearing

variable (P : Platform) (L : FitLib) (s : Web)

theorem hearsBody_records {c : Conn} {ch : Chunk} (hch : c.chunk = some ch) (bs : List UInt8)
    (w : World) (tr : List FlashEvent) :
    Records exec (fun _ _ => True)
      (fun y w' tr' => ∃ x es, y = x.heard (c.took ch bs.length) ∧ tr' = tr ++ es ∧
        Delivers P L s ch bs w x w' es)
      (hearsBody P L s c bs) w tr := by
  unfold hearsBody
  rw [hch]
  apply (receiveBody_records P L s ch bs w tr).bind
  rintro x w' _ ⟨es, rfl, hd⟩
  exact ⟨x, es, rfl, rfl, hd⟩

/-- **Bytes on a connection.** -/
theorem hears_records (c : Conn) (bs : List UInt8) (w : World) :
    Records exec (fun _ _ => True) (fun y w' tr' => Hears P L s c bs w y w' tr')
      (hears P L s c bs) w [] := by
  unfold hears
  apply records_ite
  · intro hreply
    exact .ignored (.inl hreply)
  intro hreply
  have hnone : c.reply = none := by simpa using hreply
  apply records_ite
  · intro hdone
    cases hch : c.chunk with
    | none =>
      unfold hearsBody
      rw [hch]
      exact .ignored (.inr ⟨hdone, hch⟩)
    | some ch =>
      apply (hearsBody_records P L s hch bs w []).mono
      rintro _ w' _ ⟨x, es, rfl, rfl, hd⟩
      exact .body hnone hdone hch hd
  intro hdone
  have hfresh : c.headersDone = false := by simpa using hdone
  cases hfeed : feedHeader c.reqhdr bs with
  | more hdr => exact .header hnone hfresh hfeed
  | overflow hdr => exact .overflow hnone hfresh hfeed
  | complete hdr rest =>
    apply (records_calm (sparesStage_routeReady P (cstr hdr) s)
      (routeReady_requested P (cstr hdr) s) w []).bind
    rintro x w₁ _ ⟨hx, es, rfl, hcalm⟩
    cases x with
    | served r => exact .request hnone hfresh hfeed (hx.1 r rfl) hcalm
    | upload ch =>
      obtain ⟨k, hro, hadm⟩ := hx.2 ch rfl
      apply (hearsBody_records P L s (c := { c.routed hdr with chunk := some ch }) rfl rest w₁ _).mono
      rintro _ w' _ ⟨x, es', rfl, rfl, hd⟩
      exact .admitted hnone hfresh hfeed hro hadm hcalm hd

theorem hears_run (c : Conn) (bs : List UInt8) (os : ℕ → Outcome) (w : World) :
    Hears P L s c bs w (run exec (hears P L s c bs) os w).val
      (run exec (hears P L s c bs) os w).world (run exec (hears P L s c bs) os w).trace := by
  have h := ((hears_records P L s c bs w).run_of os (recorded_nil _)).2
  rwa [List.nil_append] at h

end Hearing

/-! ## Events -/

def Conn.pending (c : Conn) : Option Chunk := if c.reply.isSome then none else c.chunk

def Host.pending (h : Host) (id : ℕ) : Option Chunk := (h.conns id).bind Conn.pending

def Board.trace (P : Platform) (L : FitLib) (b : Board) (i : Input × (ℕ → Outcome)) :
    List FlashEvent :=
  (run exec (b.host.react P L i.1) i.2 b.world).trace

def Settled (c : Option Conn) : Prop := ∀ c', c = some c' → c'.reply.isSome = true

theorem settled_none : Settled none := nofun

theorem settled_some {c : Conn} (h : c.reply.isSome = true) : Settled (some c) := by
  rintro c' ⟨⟩
  exact h

/-- The uploads are as they were, and so is each connection that has no reply yet. -/
structure Undisturbed (h h' : Host) : Prop where
  uploads : h'.web.uploads = h.web.uploads
  conns : ∀ id, h'.conns id = h.conns id ∨ Settled (h'.conns id)

theorem Undisturbed.refl (h : Host) : Undisturbed h h := ⟨rfl, fun _ => .inl rfl⟩

def Host.opened (h : Host) : Host :=
  { h with connId := h.connId + 1, conns := Function.update h.conns (h.connId + 1) (some {}) }

/-- The event is neither a new connection, nor bytes on an open one, nor a new start. -/
def Host.Aside (h : Host) (i : Input) : Prop :=
  match h.phase, i with
  | .net, .accept => False
  | .net, .recv id _ _ => h.conns id = none
  | .exited, .restart _ _ => False
  | _, _ => True

inductive Board.Moves (P : Platform) (L : FitLib) (b : Board) (i : Input × (ℕ → Outcome))
    (b' : Board) (es : List FlashEvent) : Prop
  | quiet : b.host.Aside i.1 → Undisturbed b.host b'.host → Calm b.world b'.world es →
      Board.Moves P L b i b' es
  | opened : b.host.phase = .net → i.1 = .accept → b' = ⟨b.host.opened, b.world⟩ → es = [] →
      Board.Moves P L b i b' es
  | restarted {probe : Probe} {ok : Bool} : b.host.phase = .exited → i.1 = .restart probe ok →
      b'.host.web.uploads = ({} : Web).uploads →
      (∀ id, b'.host.conns id = b.host.conns id ∨ Settled (b'.host.conns id)) →
      Calm b.world b'.world es → Board.Moves P L b i b' es
  | heard {id : ℕ} {bs : List UInt8} {p : Pump} {c : Conn} {x : Heard} {w' : World}
      {es₁ es₂ : List FlashEvent} : b.host.phase = .net → i.1 = .recv id bs p →
      b.host.conns id = some c → (run exec (hears P L b.host.web c bs) i.2 b.world).val = x →
      Hears P L b.host.web c bs b.world x w' es₁ → Calm w' b'.world es₂ → es = es₁ ++ es₂ →
      b'.host.web.uploads = x.web.uploads → (∀ id', id' ≠ id → b'.host.conns id' = b.host.conns id') →
      (∀ s c', x = .waits s c' → b'.host.conns id = some c') →
      ((∀ s c', x ≠ .waits s c') → Settled (b'.host.conns id)) → Board.Moves P L b i b' es

section Step

variable (P : Platform) (L : FitLib)

/-! ### The response -/

theorem pumpConn_settles (p : Pump) (s : Web) (c : Conn) (h : c.reply.isSome = true) :
    Gives (fun r => r.1.uploads = s.uploads ∧ Settled r.2)
      (pumpConn p s c) := by
  apply (pumpConn_pumped p s c).mono
  rintro _ (_ | _ | _)
  · exact ⟨rfl, settled_some h⟩
  · exact ⟨rfl, settled_none⟩
  · exact ⟨rfl, settled_some h⟩

theorem finish_yields (p : Pump) (x : Heard) : Gives
    (fun r => r.1.uploads = x.web.uploads ∧ (∀ s c', x = .waits s c' → r.2 = some c') ∧
      ((∀ s c', x ≠ .waits s c') → Settled r.2)) (x.finish p) := by
  cases x with
  | waits s c =>
    apply yields_ret
    refine ⟨rfl, ?_, fun h => absurd rfl (h s c)⟩
    rintro s' c' ⟨⟩
    rfl
  | drops s c => exact yields_ret ⟨rfl, fun _ _ => nofun, fun _ => settled_none⟩
  | answers r c =>
    apply (pumpConn_settles p r.web _ rfl).mono
    intro y hy
    exact ⟨hy.1, fun _ _ => nofun, fun _ => hy.2⟩

theorem sparesStage_finish (p : Pump) (x : Heard) : Uses Cmd.SparesStage (x.finish p) := by
  cases x with
  | waits s c => trivial
  | drops s c => trivial
  | answers r c => exact sparesStage_pumpConn p r.web _

/-! ### The end of an iteration -/

theorem service_uploads (probe : Probe) (s : Web) : Gives
    (fun s' => s'.uploads = s.uploads) (service P probe s) := by
  have hupdate : ∀ s : Web, Gives (fun s' => s'.uploads = s.uploads)
      (serviceUpdate probe s) := by
    intro s
    refine yields_exit rfl fun _ => ?_
    apply yields_then
    intro r
    apply yields_ite
    · intro _
      exact yields_then fun _ => yields_ret rfl
    intro _
    apply yields_ite
    · intro _
      exact yields_then fun _ => yields_then fun _ => yields_ret rfl
    · intro _
      exact yields_ret rfl
  have hmigration : ∀ s : Web, Gives (fun s' => s'.uploads = s.uploads)
      (serviceMigration P s) := by
    intro s
    refine yields_exit rfl fun _ => ?_
    apply yields_then
    intro r
    apply yields_ite
    · intro _
      exact yields_then fun _ => yields_ret rfl
    intro _
    apply yields_ite
    · intro _
      exact yields_then fun _ => yields_then fun _ => yields_ret rfl
    · intro _
      exact yields_ret rfl
  have hbootloader : ∀ s : Web, Gives (fun s' => s'.uploads = s.uploads)
      (serviceBootloader P s) := by
    intro s
    refine yields_exit rfl fun _ => ?_
    apply yields_then
    intro r
    apply yields_ite
    · intro _
      exact yields_then fun _ => yields_ret rfl
    intro _
    apply yields_ite
    · intro _
      exact yields_then fun _ => yields_ret rfl
    · intro _
      exact yields_ret rfl
  have hengines : Gives (fun s' => s'.uploads = s.uploads)
      (serviceEngines P probe s) := by
    apply yields_bind (hupdate s)
    intro s₁ h₁
    apply yields_bind (hmigration s₁)
    intro s₂ h₂
    apply (hbootloader s₂).mono
    intro s₃ h₃
    rw [h₃, h₂, h₁]
  have hstop : ∀ {base limit : ℕ} {line : LogLine} {p : FlashProg Web},
      Gives (fun s' => s'.uploads = s.uploads) p →
      Gives (fun s' => s'.uploads = s.uploads)
        ((getTimer base).bind fun t => if limit ≤ t then
          (logf line).bind fun _ => Prog.ret { s with stop := true } else p) := by
    intro base limit line p hp
    apply yields_then
    intro t
    apply yields_ite
    · intro _
      exact yields_then fun _ => yields_ret rfl
    · intro _
      exact hp
  have hforced : ∀ {p : FlashProg Web},
      Gives (fun s' => s'.uploads = s.uploads) p →
      Gives (fun s' => s'.uploads = s.uploads)
        (if s.pendingReboot && s.rebootRequestAt != 0 then
          (getTimer s.rebootRequestAt).bind fun t => if rebootForceMs ≤ t then
            (logf .rebootForced).bind fun _ => Prog.ret { s with stop := true } else p
        else p) := fun hp => yields_ite (fun _ => hstop hp) fun _ => hp
  unfold service
  exact yields_ite (fun _ => hstop (hforced hengines)) fun _ => hforced hengines

/-! ### Every event -/

variable {P L} in
theorem moves_of_yields {b : Board} {i : Input × (ℕ → Outcome)} (hi : b.host.Aside i.1)
    (hu : Uses Cmd.SparesStage (b.host.react P L i.1))
    (hy : Gives (Undisturbed b.host) (b.host.react P L i.1)) :
    b.Moves P L i (b.step P L i) (b.trace P L i) :=
  .quiet hi (hy.run_of i.2 b.world fun _ _ => trivial) (calm_run hu i.2 b.world)

theorem onConn_undisturbed (h : Host) (id : ℕ) (f : Conn → FlashProg (Web × Option Conn))
    (hf : ∀ c, h.conns id = some c → Gives
      (fun r => r.1.uploads = h.web.uploads ∧ (r.2 = some c ∨ Settled r.2)) (f c)) :
    Gives (Undisturbed h) (h.onConn id f) := by
  unfold Host.onConn
  split
  · exact yields_ret (.refl h)
  · rename_i c hc
    apply yields_bind (hf c hc)
    intro r hr
    apply yields_ret
    refine ⟨hr.1, fun id' => ?_⟩
    by_cases hid : id' = id
    · subst hid
      rcases hr.2 with hsame | hset
      · left
        show Function.update h.conns id' r.2 id' = h.conns id'
        rw [Function.update_self, hsame, hc]
      · right
        show Settled (Function.update h.conns id' r.2 id')
        rw [Function.update_self]
        exact hset
    · left
      exact Function.update_of_ne hid _ _

theorem sparesStage_onConn (h : Host) (id : ℕ) {f : Conn → FlashProg (Web × Option Conn)}
    (hf : ∀ c, Uses Cmd.SparesStage (f c)) : Uses Cmd.SparesStage (h.onConn id f) := by
  unfold Host.onConn
  split
  · trivial
  · exact uses_bind (hf _) fun _ => trivial

theorem network_undisturbed (h : Host) (i : Input) (hi : ∀ id bs p, i ≠ .recv id bs p)
    (hacc : i ≠ .accept) :
    Gives (Undisturbed h) (h.network P L i) ∧
      Uses Cmd.SparesStage (h.network P L i) := by
  cases i with
  | recv id bs p => exact absurd rfl (hi id bs p)
  | eof id =>
    constructor
    · apply onConn_undisturbed
      intro c _
      apply yields_then
      intro _
      apply yields_ret
      split_ifs
      · exact ⟨rfl, .inl rfl⟩
      · exact ⟨rfl, .inr settled_none⟩
    · exact sparesStage_onConn h id fun c => uses_bind (sparesStage_noteEof _ c) fun _ => trivial
  | recvError id =>
    exact ⟨onConn_undisturbed h id _ fun _ _ => yields_ret ⟨rfl, .inr settled_none⟩,
      sparesStage_onConn h id fun _ => trivial⟩
  | err id =>
    exact ⟨onConn_undisturbed h id _ fun _ _ => yields_ret ⟨rfl, .inr settled_none⟩,
      sparesStage_onConn h id fun _ => trivial⟩
  | ack id p acked =>
    constructor
    · apply onConn_undisturbed
      intro c _
      refine yields_exit ⟨rfl, .inl rfl⟩ fun hreply => ?_
      have hsome : c.reply.isSome = true := by simpa [Option.isSome_iff_ne_none] using hreply
      apply yields_bind (pumpConn_settles p h.web c hsome)
      intro r hr
      split
      · apply yields_ret
        split_ifs
        · exact ⟨hr.1, .inr settled_none⟩
        · exact ⟨hr.1, .inr hr.2⟩
      · exact yields_ret ⟨hr.1, .inr hr.2⟩
    · apply sparesStage_onConn
      intro c
      apply uses_ite
      · intro _
        trivial
      · intro _
        apply uses_bind (sparesStage_pumpConn p _ c)
        intro r
        split
        · trivial
        · trivial
  | accept => exact absurd rfl hacc
  | inactive =>
    exact ⟨yields_then fun _ => yields_ret ⟨rfl, fun _ => .inl rfl⟩,
      uses_bind (sparesStage_logf _) fun _ => trivial⟩
  | uart ctrlC => exact ⟨yields_ret (.refl h), trivial⟩
  | service probe => exact ⟨yields_ret (.refl h), trivial⟩
  | after => exact ⟨yields_ret (.refl h), trivial⟩
  | restart probe ok => exact ⟨yields_ret (.refl h), trivial⟩

theorem moves_recv {b : Board} {i : Input × (ℕ → Outcome)} {id : ℕ} {bs : List UInt8} {p : Pump}
    {c : Conn} (hphase : b.host.phase = .net) (hi : i.1 = .recv id bs p)
    (hc : b.host.conns id = some c) : b.Moves P L i (b.step P L i) (b.trace P L i) := by
  have hreact : b.host.react P L i.1 =
      ((hears P L b.host.web c bs).bind (Heard.finish p)).bind fun r =>
        Prog.ret (b.host.setConn id r) := by
    rw [hi, ← feedBytes_eq]
    simp only [Host.react, hphase, Host.network, Host.onConn, hc]
    rfl
  obtain ⟨r, hr⟩ : ∃ r, run exec (hears P L b.host.web c bs) i.2 b.world = r := ⟨_, rfl⟩
  obtain ⟨t, ht⟩ : ∃ t, run exec (r.val.finish p) (fun n => i.2 (n + r.trace.length)) r.world = t :=
    ⟨_, rfl⟩
  have hrun : run exec (b.host.react P L i.1) i.2 b.world =
      ⟨b.host.setConn id t.val, t.world, r.trace ++ t.trace⟩ := by
    rw [hreact, run_bind_ret, run_bind, hr]
    dsimp only
    rw [ht]
  have hhears := hears_run P L b.host.web c bs i.2 b.world
  have hcalm := calm_run (sparesStage_finish p r.val) (fun n => i.2 (n + r.trace.length)) r.world
  have hfin := (finish_yields p r.val).run_of (fun n => i.2 (n + r.trace.length)) r.world
    fun _ _ => trivial
  rw [hr] at hhears
  rw [ht] at hfin hcalm
  have hhost : (b.step P L i).host = b.host.setConn id t.val := congrArg Result.val hrun
  have hworld : (b.step P L i).world = t.world := congrArg Result.world hrun
  have htrace : b.trace P L i = r.trace ++ t.trace := congrArg Result.trace hrun
  have hconn : (b.step P L i).host.conns id = t.val.2 := by
    rw [hhost]
    exact Function.update_self id _ _
  refine .heard hphase hi hc (congrArg Result.val hr) hhears ?_ htrace ?_ ?_ ?_ ?_
  · rw [hworld]
    exact hcalm
  · rw [hhost]
    exact hfin.1
  · intro id' hid
    rw [hhost]
    exact Function.update_of_ne hid _ _
  · intro s c' hx
    rw [hconn]
    exact hfin.2.1 s c' hx
  · intro hx
    rw [hconn]
    exact hfin.2.2 hx

/-- **What an event does to the uploads.** -/
theorem board_moves (b : Board) (i : Input × (ℕ → Outcome)) :
    b.Moves P L i (b.step P L i) (b.trace P L i) := by
  have hstay : b.host.Aside i.1 → b.host.react P L i.1 = Prog.ret b.host →
      b.Moves P L i (b.step P L i) (b.trace P L i) := by
    intro haside h
    apply moves_of_yields haside
    · rw [h]
      trivial
    · rw [h]
      exact yields_ret (.refl b.host)
  cases hphase : b.host.phase with
  | top =>
    cases hi : i.1 with
    | uart ctrlC =>
      have hreact : b.host.react P L i.1 = if ctrlC then
          Prog.ret ({ b.host with web := { b.host.web with stop := true } }).exit
          else Prog.ret { b.host with phase := .net } := by
        simp only [Host.react, hphase, hi]
        rfl
      apply moves_of_yields (by simp [Host.Aside, hphase, hi])
      · rw [hreact]
        exact uses_exit fun _ => trivial
      · rw [hreact]
        exact yields_exit ⟨rfl, fun _ => .inr settled_none⟩
          fun _ => yields_ret ⟨rfl, fun _ => .inl rfl⟩
    | _ =>
      apply hstay
      · simp [Host.Aside, hphase, hi]
      · simp only [Host.react, hphase, hi]
        rfl
  | exited =>
    cases hi : i.1 with
    | after =>
      have hreact : b.host.react P L i.1 = (afterLoop b.host.web).bind fun _ => Prog.ret b.host := by
        simp only [Host.react, hphase, hi]
        rfl
      apply moves_of_yields (by simp [Host.Aside, hphase, hi])
      · rw [hreact]
        exact uses_bind (sparesStage_afterLoop _) fun _ => trivial
      · rw [hreact]
        exact yields_then fun _ => yields_ret (.refl b.host)
    | restart probe ok =>
      have hreact : b.host.react P L i.1 = if ok then Prog.ret
          { phase := .top, web := b.host.web.restarted.probed probe, connId := b.host.connId }
          else Prog.ret { b.host with web := b.host.web.restarted } := by
        simp only [Host.react, hphase, hi]
        rfl
      have hy : Gives (fun h' => h'.web.uploads = ({} : Web).uploads ∧
          ∀ id, h'.conns id = b.host.conns id ∨ Settled (h'.conns id)) (b.host.react P L i.1) := by
        rw [hreact]
        exact yields_exit ⟨rfl, fun _ => .inr settled_none⟩
          fun _ => yields_ret ⟨rfl, fun _ => .inl rfl⟩
      have hu : Uses Cmd.SparesStage (b.host.react P L i.1) := by
        rw [hreact]
        exact uses_exit fun _ => trivial
      have hrun := hy.run_of i.2 b.world fun _ _ => trivial
      exact .restarted hphase hi hrun.1 hrun.2 (calm_run hu i.2 b.world)
    | _ =>
      apply hstay
      · simp [Host.Aside, hphase, hi]
      · simp only [Host.react, hphase, hi]
        rfl
  | net =>
    by_cases hrecv : ∃ id bs p, i.1 = .recv id bs p
    · obtain ⟨id, bs, p, hi⟩ := hrecv
      cases hc : b.host.conns id with
      | none =>
        apply hstay
        · simp [Host.Aside, hphase, hi, hc]
        · simp only [Host.react, hphase, hi, Host.network, Host.onConn, hc]
          rfl
      | some c => exact moves_recv P L hphase hi hc
    have hother : ∀ id bs p, i.1 ≠ .recv id bs p := fun id bs p h => hrecv ⟨id, bs, p, h⟩
    by_cases hacc : i.1 = .accept
    · have hreact : b.host.react P L i.1 = Prog.ret b.host.opened := by
        simp only [Host.react, hphase, hacc, Host.network, Host.opened, pure_def]
      have hrun : run exec (b.host.react P L i.1) i.2 b.world = ⟨b.host.opened, b.world, []⟩ := by
        rw [hreact]
        rfl
      refine .opened hphase hacc ?_ (congrArg Result.trace hrun)
      unfold Board.step
      rw [hrun]
    by_cases hserv : ∃ probe, i.1 = .service probe
    · obtain ⟨probe, hi⟩ := hserv
      have hreact : b.host.react P L i.1 = (service P probe b.host.web).bind fun web =>
          Prog.ret (if web.stop then ({ b.host with web }).exit
            else { b.host with web, phase := .top }) := by
        simp only [Host.react, hphase, hi]
        rfl
      apply moves_of_yields (by simp [Host.Aside, hphase, hi])
      · rw [hreact]
        exact uses_bind (sparesStage_service P probe _) fun _ => trivial
      · rw [hreact]
        apply yields_bind (service_uploads P probe b.host.web)
        intro web hweb
        apply yields_ret
        split_ifs
        · exact ⟨hweb, fun _ => .inr settled_none⟩
        · exact ⟨hweb, fun _ => .inl rfl⟩
    · have hreact : b.host.react P L i.1 = b.host.network P L i.1 := by
        simp only [Host.react, hphase]
        split
        all_goals simp_all
      have haside : b.host.Aside i.1 := by
        unfold Host.Aside
        rw [hphase]
        cases hi : i.1 with
        | accept => exact hacc hi
        | recv id bs p => exact absurd hi (hother id bs p)
        | _ => trivial
      apply moves_of_yields haside
      · rw [hreact]
        exact (network_undisturbed P L b.host i.1 hother hacc).2
      · rw [hreact]
        exact (network_undisturbed P L b.host i.1 hother hacc).1

end Step

end UrsusBoot
