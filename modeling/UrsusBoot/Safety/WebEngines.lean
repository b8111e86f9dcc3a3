import UrsusBoot.Engine.Status
import UrsusBoot.Web.Loop

/-!
# What an event does to the engines

The engines and the flags the loop steps them by change in few ways: a request starts one, the end
of an iteration steps those whose flag is set, and a new start of `ursusweb` clears the flags.
-/

namespace UrsusBoot

open Prog

structure Drive where
  engines : Engines
  ubiUpdate : Bool
  ubiMigration : Bool
  bootloader : Bool

def Web.drive (s : Web) : Drive :=
  ⟨s.engines, s.pendingUbiUpdate, s.pendingUbiMigration, s.pendingBootloaderUpdate⟩

/-- What an event may do to the engines when it completes a request for `ro`, on the layout `l`. The
preloader's upload replaces the BL2 candidate, and a start of the bootloader update that fails leaves
its context cleared. -/
inductive Starts (ro : Option Route) (l : Layout) (d : Drive) : Drive → Prop
  | none (bl2 : Bl2Candidate) : Starts ro l d { d with engines := { d.engines with bl2 } }
  | update (upd : UbiUpdate.Ctx) : ro = some .installUbi → l = .openwrtUbi →
      d.engines.anyActive = false → upd.active = true →
      upd.stage = .precheck ∧ upd.announced = false →
      Starts ro l d { d with engines := { d.engines with upd }, ubiUpdate := true }
  | migration (mig : Migration.Ctx) : ro = some .installUbi → l.Migratable →
      d.engines.mig.active = false → mig.active = true →
      mig.stage = .precheck ∧ mig.announced = false →
      Starts ro l d { d with engines := { d.engines with mig }, ubiMigration := true }
  | bootloader (fip : FipUpdate.Ctx) :
      ro = some .updateUrsusboot ∨ ro = some .replaceWithVanilla →
      d.engines.mig.active = false → d.engines.fip.active = false → fip.active = true →
      fip.stage = .precheck ∧ fip.announced = false →
      Starts ro l d { d with engines := { d.engines with fip }, bootloader := true }
  | cleared (fip : FipUpdate.Ctx) :
      ro = some .updateUrsusboot ∨ ro = some .replaceWithVanilla →
      d.engines.mig.active = false → d.engines.fip.active = false → fip.active = false →
      fip.stage = .idle → Starts ro l d { d with engines := { d.engines with fip } }

theorem Starts.refl (ro : Option Route) (l : Layout) (d : Drive) : Starts ro l d d :=
  .none d.engines.bl2

/-! ## The starts of the engines -/

theorem updateStart_yields (c : UbiUpdate.Ctx) (mig : Bool) (addr len : ℕ) (keep : Bool) :
    Gives (fun r => (r.1 ≠ 0 → r.2 = c) ∧
      (r.1 = 0 → r.2.active = true ∧ r.2.stage = .precheck ∧ r.2.announced = false))
      (UbiUpdate.start c mig addr len keep) := by
  unfold UbiUpdate.start
  refine yields_exit ⟨fun _ => rfl, fun h => absurd h (by simp)⟩ fun _ => ?_
  refine yields_exit ⟨fun _ => rfl, fun h => absurd h (by simp)⟩ fun _ => ?_
  apply yields_then
  intro ret
  refine yields_exit ⟨fun _ => rfl, fun h => absurd h (by simp)⟩ fun _ => ?_
  exact yields_ret ⟨fun h => absurd rfl h, fun _ => ⟨rfl, rfl, rfl⟩⟩

theorem migrationStart_cases (c : Migration.Ctx) (a n p q : ℕ) :
    ((Migration.start c a n p q).1 ≠ 0 ∧ (Migration.start c a n p q).2 = c) ∨
      ((Migration.start c a n p q).1 = 0 ∧ c.active = false ∧
        (Migration.start c a n p q).2.active = true ∧
        (Migration.start c a n p q).2.stage = .precheck ∧
        (Migration.start c a n p q).2.announced = false) := by
  unfold Migration.start
  by_cases hact : c.active = true
  · exact .inl ⟨by simp [hact], by simp [hact]⟩
  · by_cases hlen : n = 0 ∨ 0x04000000 < n
    · exact .inl ⟨by simp [hact, hlen], by simp [hact, hlen]⟩
    · exact .inr ⟨by simp [hact, hlen], by simpa using hact, by simp [hact, hlen],
        by simp [hact, hlen], by simp [hact, hlen]⟩

/-- A start of the bootloader update when none is active: under way, or cleared. -/
def FipStarted (r : ℤ × FipUpdate.Ctx) : Prop :=
  (r.1 ≠ 0 → r.2.active = false ∧ r.2.stage = .idle) ∧
    (r.1 = 0 → r.2.active = true ∧ r.2.stage = .precheck ∧ r.2.announced = false)

theorem fipStarted_cleared {e : ℤ} (h : e ≠ 0) : FipStarted (e, {}) :=
  ⟨fun _ => ⟨rfl, rfl⟩, fun h' => absurd h' h⟩

theorem fipStart_yields (P : Platform) (c : FipUpdate.Ctx) (addr len : ℕ) (kind : FipKind)
    (hact : c.active = false) :
    Gives FipStarted (FipUpdate.startKind P c addr len kind) := by
  unfold FipUpdate.startKind
  apply yields_ite
  · intro h
    rw [hact] at h
    exact absurd h (by decide)
  intro _
  apply yields_bind yields_detectUbiLayout
  intro r hr
  cases r with
  | error e =>
    have hneg : e < 0 := errNeg_error.1 hr
    exact yields_ret (fipStarted_cleared (by omega))
  | ok isUbi =>
    apply yields_then
    intro ret
    apply yields_ite
    · intro hret
      exact yields_ret (fipStarted_cleared hret)
    intro _
    have hgo : Gives FipStarted
        (do
          let buf ← readMem addr len
          return (0, { addr, len, kind, ubiLayout := isUbi, digest := P.sha256 buf,
                       stage := .precheck, active := true })) := by
      apply yields_then
      intro buf
      exact yields_ret ⟨fun h => absurd rfl h, fun _ => ⟨rfl, rfl, rfl⟩⟩
    -- the Vanilla FIP also asks for the pinned BL2
    apply yields_ite
    · intro _
      apply yields_then
      intro ret'
      apply yields_ite
      · intro hret'
        exact yields_ret (fipStarted_cleared hret')
      · intro _
        exact hgo
    · intro _
      exact hgo

/-! ## Requests -/

abbrev KeepsDrive (s : Web) (r : Served) : Prop := r.web.drive = s.drive

section Keep

variable (s : Web)

@[simp] theorem begun_drive {k : UploadKind} (u : UploadSession k) : (s.begun u).drive = s.drive := by
  cases k <;> rfl

@[simp] theorem discarded_drive (k : UploadKind) : (s.discarded k).drive = s.drive := by
  cases k <;> rfl

theorem uploadReject_web (status : ℕ) (rc : ReasonClass) (reason : String) (expected got : ℕ) :
    Gives (fun r => r.web = s) (uploadReject s status rc reason expected got) := by
  apply yields_then
  intro _
  exact yields_ret rfl

theorem uploadReject_keeps (status : ℕ) (rc : ReasonClass) (reason : String) (expected got : ℕ) :
    Gives (KeepsDrive s) (uploadReject s status rc reason expected got) :=
  (uploadReject_web s status rc reason expected got).mono fun _ hr => congrArg Web.drive hr

theorem beginUpload_keeps (k : UploadKind) (h : List UInt8) :
    Gives (KeepsDrive s) (beginUpload k h s) := by
  unfold beginUpload
  dsimp only
  split_ifs
  · exact uploadReject_keeps s _ _ _ _ _
  · exact uploadReject_keeps s _ _ _ _ _
  · split
    · exact uploadReject_keeps s _ _ _ _ _
    · split
      · exact uploadReject_keeps s _ _ _ _ _
      · apply yields_then
        intro _
        exact yields_ret (begun_drive s _)

theorem discardUpload_keeps (k : UploadKind) :
    Gives (KeepsDrive s) (discardUpload k s) := by
  apply yields_then
  intro _
  exact yields_ret (discarded_drive s k)

theorem bootOnce_keeps : Gives (KeepsDrive s) (bootOnce s) := by
  refine yields_exit rfl fun _ => ?_
  apply yields_then
  intro _
  exact yields_ret rfl

theorem installStockLayout_keeps (h : List UInt8) :
    Gives (KeepsDrive s) (installStockLayout h s) := by
  refine yields_exit rfl fun _ => ?_
  refine yields_exit rfl fun _ => ?_
  apply yields_then
  intro _
  exact yields_ret rfl

theorem resetSettingsReply_keeps (ret : ℤ) :
    Gives (KeepsDrive s) (resetSettingsReply s ret) := by
  apply yields_then
  intro _
  refine yields_exit rfl fun _ => ?_
  exact yields_ret rfl

theorem resetSettingsRequest_keeps (h : List UInt8) :
    Gives (KeepsDrive s) (resetSettingsRequest h s) := by
  refine yields_exit rfl fun _ => ?_
  refine yields_exit rfl fun _ => ?_
  split
  · exact yields_then fun ret => resetSettingsReply_keeps s ret
  · exact yields_then fun ret => resetSettingsReply_keeps s ret
  · exact yields_ret rfl

theorem rebootRequest_keeps (h : List UInt8) :
    Gives (KeepsDrive s) (rebootRequest h s) := by
  apply yields_then
  intro _
  apply yields_ite
  · intro _
    apply yields_then
    intro _
    exact yields_ret rfl
  · intro _
    apply yields_then
    intro now
    apply yields_then
    intro _
    exact yields_ret rfl

theorem prepareChunk_refuses (k : UploadKind) (h : List UInt8) :
    Gives (fun r : Except Served Chunk => ∀ x, r = .error x → x.web = s)
      (prepareChunk k h s) := by
  have hrefuse : ∀ status rc reason expected got, Gives
      (fun r : Except Served Chunk => ∀ x, r = .error x → x.web = s)
      ((uploadReject s status rc reason expected got).bind fun x => Prog.ret (.error x)) := by
    intro status rc reason expected got
    apply yields_bind (uploadReject_web s status rc reason expected got)
    intro x hx
    apply yields_ret
    rintro y ⟨⟩
    exact hx
  unfold prepareChunk
  dsimp only
  repeat' split
  all_goals first
    | exact hrefuse _ _ _ _ _
    | exact yields_ret (fun x hx => nomatch hx)

end Keep

/-- A request for `ro` may start an engine. -/
abbrev MayStart (ro : Option Route) (s : Web) (r : Served) : Prop :=
  Starts ro s.currentLayout s.drive r.web.drive

theorem mayStart_of_keeps {ro : Option Route} {s : Web} {r : Served} (h : KeepsDrive s r) :
    MayStart ro s r := by
  show Starts ro s.currentLayout s.drive r.web.drive
  rw [h]
  exact .refl _ _ _

theorem installUbiUpdate_starts (h : List UInt8) (s : Web) (hl : s.currentLayout = .openwrtUbi) :
    Gives (MayStart (some .installUbi) s) (installUbiUpdate h s) := by
  refine yields_exit (.refl _ _ _) fun _ => ?_
  refine yields_exit (.refl _ _ _) fun hidle => ?_
  apply yields_bind (updateStart_yields _ _ _ _ _)
  intro r hr
  apply yields_ite
  · intro hret
    apply yields_ret
    rw [hr.1 hret]
    exact .refl _ _ _
  · intro hret
    obtain ⟨hact, hstage⟩ := hr.2 (not_not.1 hret)
    have hnone : s.engines.anyActive = false := by simpa using hidle
    apply yields_then
    intro _
    exact yields_ret (.update r.2 rfl hl hnone hact hstage)

theorem installUbi_starts (h : List UInt8) (s : Web) :
    Gives (MayStart (some .installUbi) s) (installUbi h s) := by
  refine yields_exit (.refl _ _ _) fun _ => ?_
  refine yields_exit (.refl _ _ _) fun _ => ?_
  apply yields_ite
  · intro hl
    exact installUbiUpdate_starts h s hl
  intro _
  refine yields_exit (.refl _ _ _) fun hl => ?_
  refine yields_exit (.refl _ _ _) fun _ => ?_
  rcases migrationStart_cases s.engines.mig s.img.addr s.img.len ubiPreloaderAddr
    (s.session .ubiPreloader).total with ⟨hret, hctx⟩ | ⟨hret, hidle, hact, hstage⟩
  · dsimp only
    rw [if_pos hret, hctx]
    exact yields_ret (.refl _ _ _)
  · dsimp only
    rw [if_neg (not_not.2 hret)]
    apply yields_then
    intro _
    exact yields_ret (.migration _ rfl (not_not.1 hl) hidle hact hstage)

theorem fipRequest_starts {ro : Option Route} (P : Platform) (q : FipRequest) (h : List UInt8)
    (s : Web) (hro : ro = some .updateUrsusboot ∨ ro = some .replaceWithVanilla) :
    Gives (MayStart ro s) (fipRequest P q h s) := by
  refine yields_exit (.refl _ _ _) fun _ => ?_
  refine yields_exit (.refl _ _ _) fun _ => ?_
  refine yields_exit (.refl _ _ _) fun hidle => ?_
  obtain ⟨hmig, hfip⟩ : s.engines.mig.active = false ∧ s.engines.fip.active = false := by
    simpa using hidle
  apply yields_bind (fipStart_yields P _ _ _ _ hfip)
  intro r hr
  apply yields_ite
  · intro hret
    obtain ⟨hact, hstage⟩ := hr.1 hret
    exact yields_ret (.cleared r.2 hro hmig hfip hact hstage)
  · intro hret
    obtain ⟨hact, hstage⟩ := hr.2 (not_not.1 hret)
    apply yields_then
    intro _
    exact yields_ret (.bootloader r.2 hro hmig hfip hact hstage)

/-- **What a request does to the engines.** -/
theorem routeReady_starts (P : Platform) (h : List UInt8) (s : Web) :
    Gives
      (fun r => ∀ x, r = .served x → MayStart (some (Route.ofHeader h)) s x) (routeReady P h s) := by
  have hserve : ∀ {p : FlashProg Served}, Gives (MayStart (some (Route.ofHeader h)) s) p →
      Gives (fun r => ∀ x, r = .served x → MayStart (some (Route.ofHeader h)) s x)
        (p.bind fun x => Prog.ret (Routed.served x)) := by
    intro p hp
    apply yields_bind hp
    intro x hx
    apply yields_ret
    rintro y ⟨⟩
    exact hx
  have hkeep : ∀ {p : FlashProg Served}, Gives (KeepsDrive s) p →
      Gives (MayStart (some (Route.ofHeader h)) s) p := fun hp => hp.mono fun _ => mayStart_of_keeps
  have hsame : ∀ reply, Gives (fun r => ∀ x, r = .served x → MayStart (some (Route.ofHeader h)) s x)
      (Prog.ret (Routed.served ⟨reply, s, false, false⟩) : FlashProg Routed) := by
    intro reply
    apply yields_ret
    rintro y ⟨⟩
    exact .refl _ _ _
  unfold routeReady
  split
  · exact hsame _
  · exact hserve (hkeep (discardUpload_keeps s _))
  · exact hserve (hkeep (beginUpload_keeps s _ h))
  · apply yields_bind (prepareChunk_refuses s _ h)
    intro r hr
    cases r with
    | error x =>
      apply yields_ret
      rintro y ⟨⟩
      apply mayStart_of_keeps
      show x.web.drive = s.drive
      rw [hr x rfl]
    | ok ch => exact yields_ret (fun x hx => nomatch hx)
  · exact hserve (hkeep (bootOnce_keeps s))
  · exact hserve (hkeep (installStockLayout_keeps s h))
  · rename_i hr
    rw [hr] at hserve ⊢
    exact hserve (installUbi_starts h s)
  · exact hserve (hkeep (resetSettingsRequest_keeps s h))
  · rename_i hr
    exact hserve (fipRequest_starts P _ h s (.inl (congrArg some hr)))
  · rename_i hr
    exact hserve (fipRequest_starts P _ h s (.inr (congrArg some hr)))
  · exact hserve (hkeep (rebootRequest_keeps s h))
  · exact hsame _

/-! ## Bytes and connections -/

section Bytes

variable {ro : Option Route} (P : Platform) (L : FitLib)

theorem completeUpload_starts (s : Web) (k : UploadKind) :
    Gives (MayStart ro s) (completeUpload P L s k) := by
  cases k with
  | firmware =>
    apply yields_then
    intro r
    exact yields_ret (.refl _ _ _)
  | initramfs =>
    apply yields_then
    intro r
    exact yields_ret (.refl _ _ _)
  | ubiPreloader =>
    apply yields_then
    intro r
    exact yields_ret (.none r.2)
  | ursusFip =>
    apply yields_then
    intro ret
    exact yields_ret (.refl _ _ _)
  | vanillaFip =>
    apply yields_then
    intro ret
    exact yields_ret (.refl _ _ _)

def Fed.web : Fed → Web
  | .more s _ => s
  | .abort s => s
  | .served r => r.web

theorem receiveBody_starts (s : Web) (ch : Chunk) (bs : List UInt8) :
    Gives (fun r => Starts ro s.currentLayout s.drive r.web.drive) (receiveBody P L s ch bs) := by
  have htail : Gives (fun r => Starts ro s.currentLayout s.drive r.web.drive)
      (let u := s.session ch.kind
       let ch := ch.advance bs.length
       if ch.received ≠ ch.contentLen then Prog.ret (.more s ch)
       else if ch.generation ≠ u.generation then
         (uploadReject s 409 .uploadIncomplete "upload generation changed while receiving chunk"
           u.received ch.offset).bind fun r => Prog.ret (.served r)
       else
         let done := ch.offset + ch.contentLen
         let u := u.receive done
         if done = u.total then
           (logf (.uploadComplete ch.kind.name u.generation u.filename u.total u.received)).bind
             fun _ => (completeUpload P L (s.setSession u.close) ch.kind).bind
               fun r => Prog.ret (.served r)
         else Prog.ret (.served ⟨⟨200, .json [("result", .str "CHUNK_OK"),
           ("reason_class", .str "OK"), ("complete", .bool false),
           ("generation", .bytes u.generation), ("filename", .bytes u.filename),
           ("received", .num u.received), ("declared_size", .num u.total)]⟩, s.setSession u,
           false, false⟩) : FlashProg Fed) := by
    dsimp only
    refine yields_exit (.refl _ _ _) fun _ => ?_
    apply yields_ite
    · intro _
      apply yields_bind (uploadReject_keeps s _ _ _ _ _)
      intro r hr
      exact yields_ret (mayStart_of_keeps hr)
    intro _
    apply yields_ite
    · intro _
      apply yields_then
      intro _
      apply yields_bind (completeUpload_starts P L _ _)
      intro r hr
      exact yields_ret hr
    · intro _
      exact yields_ret (.refl _ _ _)
  unfold receiveBody
  dsimp only
  refine yields_exit (.refl _ _ _) fun _ => ?_
  refine yields_exit (.refl _ _ _) fun _ => ?_
  apply yields_ite
  · intro _
    apply yields_then
    intro _
    exact htail
  · intro _
    exact htail

theorem pumpConn_drive (p : Pump) (s : Web) (c : Conn) :
    Gives (fun r => r.1.drive = s.drive) (pumpConn p s c) := by
  apply (pumpConn_pumped p s c).mono
  rintro _ (_ | _ | _) <;> rfl

theorem startResponse_starts {s : Web} (p : Pump) (r : Served) (c : Conn) (h : MayStart ro s r) :
    Gives (fun x => Starts ro s.currentLayout s.drive x.1.drive)
      (startResponse p r c) := by
  apply (pumpConn_drive p r.web _).mono
  intro x hx
  rw [hx]
  exact h

theorem feedBody_starts (p : Pump) (s : Web) (c : Conn) (bs : List UInt8) :
    Gives (fun x => Starts ro s.currentLayout s.drive x.1.drive)
      (feedBody P L p s c bs) := by
  unfold feedBody
  split
  · exact yields_ret (.refl _ _ _)
  · rename_i ch _
    apply yields_bind (receiveBody_starts P L s ch bs)
    intro r hr
    cases r with
    | more s' ch' => exact yields_ret hr
    | abort s' => exact yields_ret hr
    | served x => exact startResponse_starts p x _ hr

/-- The request that bytes complete on a connection. -/
def Conn.completes (c : Conn) (bs : List UInt8) : Option Route :=
  if c.reply.isSome || c.headersDone then none
  else
    match feedHeader c.reqhdr bs with
    | .complete hdr _ => some (Route.ofHeader (cstr hdr))
    | _ => none

theorem feedBytes_starts (p : Pump) (s : Web) (c : Conn) (bs : List UInt8) :
    Gives (fun x => Starts (c.completes bs) s.currentLayout s.drive x.1.drive)
      (feedBytes P L p s c bs) := by
  unfold feedBytes
  refine yields_exit (.refl _ _ _) fun hreply => ?_
  apply yields_ite
  · intro _
    exact feedBody_starts P L p s c bs
  intro hdone
  split
  · exact yields_ret (.refl _ _ _)
  · exact yields_ret (.refl _ _ _)
  · rename_i hdr rest hfeed
    have hro : c.completes bs = some (Route.ofHeader (cstr hdr)) := by
      simp [Conn.completes, hreply, hdone, hfeed]
    rw [hro]
    apply yields_bind (routeReady_starts P _ s)
    intro r hr
    cases r with
    | served x => exact startResponse_starts p x _ (hr x rfl)
    | upload ch => exact feedBody_starts P L p s _ _

theorem onConn_starts (h : Host) (id : ℕ) (f : Conn → FlashProg (Web × Option Conn))
    (hf : ∀ c, h.conns id = some c → Gives
      (fun x => Starts ro h.web.currentLayout h.web.drive x.1.drive) (f c)) :
    Gives (fun h' => Starts ro h.web.currentLayout h.web.drive h'.web.drive)
      (h.onConn id f) := by
  unfold Host.onConn
  split
  · exact yields_ret (.refl _ _ _)
  · rename_i c hc
    apply yields_bind (hf c hc)
    intro r hr
    exact yields_ret hr

def Host.completes (h : Host) : Input → Option Route
  | .recv id bs _ => (h.conns id).bind fun c => c.completes bs
  | _ => none

/-- **What a network event does to the engines.** -/
theorem network_starts (h : Host) (i : Input) :
    Gives
      (fun h' => Starts (h.completes i) h.web.currentLayout h.web.drive h'.web.drive)
      (h.network P L i) := by
  cases i with
  | recv id bs p =>
    apply onConn_starts h id
    intro c hc
    have hro : h.completes (.recv id bs p) = c.completes bs := by simp [Host.completes, hc]
    rw [hro]
    exact feedBytes_starts P L p h.web c bs
  | eof id =>
    apply onConn_starts h id
    intro c _
    apply yields_then
    intro _
    apply yields_ret
    split_ifs
    · exact .refl _ _ _
    · exact .refl _ _ _
  | recvError id => exact onConn_starts h id _ fun c _ => yields_ret (.refl _ _ _)
  | err id => exact onConn_starts h id _ fun c _ => yields_ret (.refl _ _ _)
  | ack id p acked =>
    apply onConn_starts h id
    intro c _
    refine yields_exit (.refl _ _ _) fun _ => ?_
    apply yields_bind (pumpConn_drive p h.web c)
    intro r hr
    have hsame : Starts (h.completes (.ack id p acked)) h.web.currentLayout h.web.drive
        r.1.drive := by
      rw [hr]
      exact .refl _ _ _
    split
    · apply yields_ret
      split_ifs
      · exact hsame
      · exact hsame
    · exact yields_ret hsame
  | inactive =>
    apply yields_then
    intro _
    exact yields_ret (.refl _ _ _)
  | uart ctrlC => exact yields_ret (.refl _ _ _)
  | accept => exact yields_ret (.refl _ _ _)
  | service probe => exact yields_ret (.refl _ _ _)
  | after => exact yields_ret (.refl _ _ _)
  | restart probe ok => exact yields_ret (.refl _ _ _)

end Bytes

/-! ## The end of an iteration -/

structure Serviced (d d' : Drive) : Prop where
  ubiUpdate : d'.ubiUpdate = d.ubiUpdate
  ubiMigration : d'.ubiMigration = d.ubiMigration
  bootloader : d'.bootloader = d.bootloader
  upd : (d.ubiUpdate && d.engines.upd.active) = false → d'.engines.upd = d.engines.upd
  mig : (d.ubiMigration && d.engines.mig.active) = false → d'.engines.mig = d.engines.mig
  fip : (d.bootloader && d.engines.fip.active) = false → d'.engines.fip = d.engines.fip

theorem Serviced.refl (d : Drive) : Serviced d d :=
  ⟨rfl, rfl, rfl, fun _ => rfl, fun _ => rfl, fun _ => rfl⟩

theorem serviceUpdate_yields (probe : Probe) (s : Web) :
    Gives (fun s' => ∃ upd, s'.drive = { s.drive with
      engines := { s.engines with upd } } ∧
      ((s.pendingUbiUpdate && s.engines.upd.active) = false → upd = s.engines.upd))
      (serviceUpdate probe s) := by
  apply yields_ite
  · intro h
    exact yields_ret ⟨s.engines.upd, rfl, fun _ => rfl⟩
  intro h
  have hgo : (s.pendingUbiUpdate && s.engines.upd.active) = true := by simpa using h
  have hno : ∀ {p : Prop}, (s.pendingUbiUpdate && s.engines.upd.active) = false → p := by
    intro p hf
    rw [hgo] at hf
    exact absurd hf (by decide)
  apply yields_then
  intro r
  apply yields_ite
  · intro _
    apply yields_then
    intro _
    exact yields_ret ⟨r.2, rfl, hno⟩
  intro _
  apply yields_ite
  · intro _
    apply yields_then
    intro _
    apply yields_then
    intro _
    exact yields_ret ⟨r.2, rfl, hno⟩
  · intro _
    exact yields_ret ⟨r.2, rfl, hno⟩

theorem serviceMigration_yields (P : Platform) (s : Web) :
    Gives (fun s' => ∃ mig bl2, s'.drive = { s.drive with
      engines := { s.engines with mig, bl2 } } ∧
      ((s.pendingUbiMigration && s.engines.mig.active) = false → mig = s.engines.mig))
      (serviceMigration P s) := by
  apply yields_ite
  · intro h
    exact yields_ret ⟨s.engines.mig, s.engines.bl2, rfl, fun _ => rfl⟩
  intro h
  have hgo : (s.pendingUbiMigration && s.engines.mig.active) = true := by simpa using h
  have hno : ∀ {p : Prop}, (s.pendingUbiMigration && s.engines.mig.active) = false → p := by
    intro p hf
    rw [hgo] at hf
    exact absurd hf (by decide)
  apply yields_then
  intro r
  apply yields_ite
  · intro _
    apply yields_then
    intro _
    exact yields_ret ⟨r.1.2, r.2, rfl, hno⟩
  intro _
  apply yields_ite
  · intro _
    apply yields_then
    intro _
    apply yields_then
    intro _
    exact yields_ret ⟨r.1.2, r.2, rfl, hno⟩
  · intro _
    exact yields_ret ⟨r.1.2, r.2, rfl, hno⟩

theorem serviceBootloader_yields (P : Platform) (s : Web) :
    Gives (fun s' => ∃ fip, s'.drive = { s.drive with
      engines := { s.engines with fip } } ∧
      ((s.pendingBootloaderUpdate && s.engines.fip.active) = false → fip = s.engines.fip))
      (serviceBootloader P s) := by
  apply yields_ite
  · intro h
    exact yields_ret ⟨s.engines.fip, rfl, fun _ => rfl⟩
  intro h
  have hgo : (s.pendingBootloaderUpdate && s.engines.fip.active) = true := by simpa using h
  have hno : ∀ {p : Prop}, (s.pendingBootloaderUpdate && s.engines.fip.active) = false → p := by
    intro p hf
    rw [hgo] at hf
    exact absurd hf (by decide)
  apply yields_then
  intro r
  apply yields_ite
  · intro _
    apply yields_then
    intro _
    exact yields_ret ⟨r.2, rfl, hno⟩
  intro _
  apply yields_ite
  · intro _
    apply yields_then
    intro _
    exact yields_ret ⟨r.2, rfl, hno⟩
  · intro _
    exact yields_ret ⟨r.2, rfl, hno⟩

theorem serviceEngines_serviced (P : Platform) (probe : Probe) (s : Web) :
    Gives (fun s' => Serviced s.drive s'.drive) (serviceEngines P probe s) := by
  apply yields_bind (serviceUpdate_yields probe s)
  rintro s₁ ⟨upd, h₁, hupd⟩
  apply yields_bind (serviceMigration_yields P s₁)
  rintro s₂ ⟨mig, bl2, h₂, hmig⟩
  apply (serviceBootloader_yields P s₂).mono
  rintro s₃ ⟨fip, h₃, hfip⟩
  -- the earlier turns leave the later engines and all flags alone
  have e₁ : s₁.engines = { s.engines with upd } := congrArg Drive.engines h₁
  have g₁ : s₁.pendingUbiMigration = s.pendingUbiMigration := congrArg Drive.ubiMigration h₁
  have e₂ : s₂.engines = { s.engines with upd, mig, bl2 } := by
    have h := congrArg Drive.engines h₂
    simpa [Web.drive, e₁] using h
  have b₁ : s₁.pendingBootloaderUpdate = s.pendingBootloaderUpdate := congrArg Drive.bootloader h₁
  have b₂ : s₂.pendingBootloaderUpdate = s₁.pendingBootloaderUpdate := congrArg Drive.bootloader h₂
  rw [g₁, e₁] at hmig
  rw [b₂, b₁, e₂] at hfip
  have hd : s₃.drive = ⟨{ s.engines with upd, mig, bl2, fip }, s.pendingUbiUpdate,
      s.pendingUbiMigration, s.pendingBootloaderUpdate⟩ := by
    rw [h₃, h₂, h₁, e₂]
    rfl
  rw [hd]
  exact ⟨rfl, rfl, rfl, hupd, hmig, hfip⟩

theorem service_serviced (P : Platform) (probe : Probe) (s : Web) :
    Gives (fun s' => Serviced s.drive s'.drive) (service P probe s) := by
  have hforce : Gives (fun s' => Serviced s.drive s'.drive)
      (do
        if s.pendingReboot && s.rebootRequestAt != 0 then
          if rebootForceMs ≤ (← getTimer s.rebootRequestAt) then
            logf .rebootForced
            return { s with stop := true }
        serviceEngines P probe s) := by
    apply yields_ite
    · intro _
      apply yields_then
      intro t
      apply yields_ite
      · intro _
        apply yields_then
        intro _
        exact yields_ret (.refl _)
      · intro _
        exact serviceEngines_serviced P probe s
    · intro _
      exact serviceEngines_serviced P probe s
  apply yields_ite
  · intro _
    apply yields_then
    intro t
    apply yields_ite
    · intro _
      apply yields_then
      intro _
      exact yields_ret (.refl _)
    · intro _
      exact hforce
  · intro _
    exact hforce

/-! ## Every event -/

/-- What the event `i` may do to the engines. -/
inductive DriveStep (h : Host) (i : Input) : Drive → Prop
  | starts {d : Drive} : Starts (h.completes i) h.web.currentLayout h.web.drive d → DriveStep h i d
  | serviced {d : Drive} (probe : Probe) : h.phase = .net → i = .service probe →
      Serviced h.web.drive d → DriveStep h i d
  /-- A new start of `ursusweb` clears the flags and leaves the engines. -/
  | restarted (probe : Probe) (ok : Bool) : h.phase = .exited → i = .restart probe ok →
      DriveStep h i ⟨h.web.engines, false, false, false⟩

/-- **Every event** is a request, the end of an iteration or a new start. -/
theorem react_drive (P : Platform) (L : FitLib) (h : Host) (i : Input) :
    Gives (fun h' => DriveStep h i h'.web.drive) (h.react P L i) := by
  have hsame : DriveStep h i h.web.drive := .starts (.refl _ _ _)
  unfold Host.react
  split
  · refine yields_exit hsame fun _ => ?_
    exact yields_ret hsame
  · rename_i hphase
    apply yields_bind (service_serviced P _ h.web)
    intro s hs
    apply yields_ret
    split_ifs
    · exact .serviced _ hphase rfl hs
    · exact .serviced _ hphase rfl hs
  · exact (network_starts P L h _).mono fun _ hd => .starts hd
  · apply yields_then
    intro _
    exact yields_ret hsame
  · rename_i hphase
    refine yields_exit (.restarted _ _ hphase rfl) fun _ => ?_
    exact yields_ret (.restarted _ _ hphase rfl)
  · exact yields_ret hsame

theorem Board.step_drive (P : Platform) (L : FitLib) (b : Board) (i : Input × (ℕ → Outcome)) :
    DriveStep b.host i.1 (b.step P L i).host.web.drive :=
  (react_drive P L b.host i.1).run_of i.2 b.world fun _ _ => trivial

end UrsusBoot
