import UrsusBoot.Web.Route

/-!
# Connections and the loop

`do_ursusweb` as a machine that reacts to one event at a time. Between two events of one connection
anything may happen on the others; segments may split a request anywhere.
-/

namespace UrsusBoot

/-! ## Responses -/

/-- What `ursus_http_pump` comes to: part of the response is out, all of it has been queued, or lwIP
reports an error. -/
inductive Pump
  | more
  | queued
  | failed
deriving DecidableEq

/-- `ursus_conn_release`: the connection is gone, and a response that was to stop the loop does so,
whether it was delivered or not. -/
def Web.release (s : Web) (c : Conn) : Web := { s with stop := s.stop || c.stopAfterResponse }

/-- The end of `ursus_http_pump` once everything is queued. -/
def noteQueued (s : Web) (c : Conn) : FlashProg (Web × Conn) := do
  if c.allQueued then return (s, c)
  let c := { c with allQueued := true }
  if c.rebootAfterResponse && !s.rebootResponseQueued then
    let now ← getTimer 0
    logf .rebootResponseQueued
    return ({ s with rebootResponseQueued := true, rebootResponseQueuedAt := now }, c)
  return (s, c)

/-- `ursus_http_pump` on a connection with a response; `none` when the connection is aborted. -/
def pumpConn (p : Pump) (s : Web) (c : Conn) : FlashProg (Web × Option Conn) := do
  match p with
  | .more => return (s, some c)
  | .failed => return (s.release c, none)
  | .queued => do
    let r ← noteQueued s c
    return (r.1, some r.2)

inductive Pumped (s : Web) (c : Conn) : Pump → Web × Option Conn → Prop
  | more : Pumped s c .more (s, some c)
  | failed : Pumped s c .failed (s.release c, none)
  | queued (noted : Bool) (now : ℕ) : Pumped s c .queued
      ({ s with rebootResponseQueued := noted, rebootResponseQueuedAt := now },
        some { c with allQueued := true })

open Prog in
theorem pumpConn_pumped (p : Pump) (s : Web) (c : Conn) :
    Gives (Pumped s c p) (pumpConn p s c) := by
  cases p with
  | more => exact yields_ret .more
  | failed => exact yields_ret .failed
  | queued =>
    have hkeep : Pumped s c .queued (s, some { c with allQueued := true }) :=
      .queued s.rebootResponseQueued s.rebootResponseQueuedAt
    apply yields_bind (P := fun r => Pumped s c .queued (r.1, some r.2))
    · apply yields_ite
      · intro hqueued
        have hsame : ({ c with allQueued := true } : Conn) = c := by rw [← hqueued]
        exact yields_ret (hsame ▸ hkeep)
      intro _
      apply yields_ite
      · intro _
        apply yields_then
        intro now
        apply yields_then
        intro _
        exact yields_ret (.queued true now)
      · intro _
        exact yields_ret hkeep
    · intro r hr
      exact yields_ret hr

def startResponse (p : Pump) (r : Served) (c : Conn) : FlashProg (Web × Option Conn) :=
  pumpConn p r.web { c with
    reply := some r.reply
    stopAfterResponse := c.stopAfterResponse || r.stopAfterResponse
    rebootAfterResponse := c.rebootAfterResponse || r.rebootAfterResponse }

/-! ## Arriving bytes -/

/-- `upload_received` counts what the chunk takes of `n` bytes. -/
def Conn.took (c : Conn) (ch : Chunk) (n : ℕ) : Conn := { c with chunk := some (ch.advance n) }

/-- The body of a request, when the connection is to deliver a chunk. -/
def feedBody (P : Platform) (L : FitLib) (p : Pump) (s : Web) (c : Conn) (bs : List UInt8) :
    FlashProg (Web × Option Conn) :=
  match c.chunk with
  | none => return (s, some c)
  | some ch => do
    match ← receiveBody P L s ch bs with
    | .more s ch => return (s, some { c with chunk := some ch })
    | .abort s => return (s.release c, none)
    | .served r => startResponse p r (c.took ch bs.length)

def feedBytes (P : Platform) (L : FitLib) (p : Pump) (s : Web) (c : Conn) (bs : List UInt8) :
    FlashProg (Web × Option Conn) :=
  if c.reply.isSome then return (s, some c)
  else if c.headersDone then feedBody P L p s c bs
  else
    match feedHeader c.reqhdr bs with
    | .more hdr => return (s, some { c with reqhdr := hdr })
    | .overflow hdr => return (s.release { c with reqhdr := hdr }, none)
    | .complete hdr rest => do
      let c := { c with reqhdr := hdr, headersDone := true }
      match ← routeReady P c.header s with
      | .served r => startResponse p r c
      | .upload ch => feedBody P L p s { c with chunk := some ch } rest

def noteEof (s : Web) (c : Conn) : FlashProg Unit :=
  match c.chunk with
  | none => return ()
  | some ch =>
    let u := s.session ch.kind
    if ch.received ≠ ch.contentLen then
      logf (.uploadEof u.generation u.filename u.total u.received ch.received ch.contentLen)
    else return ()

/-- The remote side has closed its end: a connection without a response is released. -/
def remoteEof (s : Web) (c : Conn) : FlashProg (Web × Option Conn) := do
  noteEof s c
  return if c.reply.isSome then (s, some c) else (s.release c, none)

/-! ## The end of an iteration -/

abbrev rebootGraceMs : ℕ := 500
abbrev rebootForceMs : ℕ := 3000

/-- What `ursus_probe_device` finds: the layout, and the UBI diagnosis. -/
structure Probe where
  layout : Layout
  diag : UbiDiag

def Web.probed (s : Web) (probe : Probe) : Web :=
  { s with currentLayout := probe.layout, ubiDiag := probe.diag }

/-- One step of the UBI update; a success probes the device again. -/
def serviceUpdate (probe : Probe) (s : Web) : FlashProg Web := do
  if !(s.pendingUbiUpdate && s.engines.upd.active) then return s
  let r ← UbiUpdate.step s.engines.upd
  let s := { s with engines := { s.engines with upd := r.2 } }
  if r.1 < 0 then
    logf (.ubiUpdateFailed r.2.stage.name r.1)
    return s
  if 0 < r.1 then
    logf .ubiUpdateComplete
    logf .rebootRequired
    return s.probed probe
  return s

/-- One step of the migration; a success changes the layout. -/
def serviceMigration (P : Platform) (s : Web) : FlashProg Web := do
  if !(s.pendingUbiMigration && s.engines.mig.active) then return s
  let r ← Migration.step P s.engines.bl2 s.engines.mig
  let s := { s with engines := { s.engines with mig := r.1.2, bl2 := r.2 } }
  if r.1.1 < 0 then
    logf (.migrationFailed r.1.2.stage.name r.1.1)
    return s
  if 0 < r.1.1 then
    logf .migrationComplete
    logf .migrationReady
    return { s with currentLayout := .openwrtUbi }
  return s

def serviceBootloader (P : Platform) (s : Web) : FlashProg Web := do
  if !(s.pendingBootloaderUpdate && s.engines.fip.active) then return s
  let r ← FipUpdate.step P s.engines.fip
  let s := { s with engines := { s.engines with fip := r.2 } }
  if r.1 < 0 then
    logf (.fipUpdateFailed r.2.stage.name r.1)
    return s
  if 0 < r.1 then
    logf .fipUpdateComplete
    return s
  return s

def serviceEngines (P : Platform) (probe : Probe) (s : Web) : FlashProg Web := do
  let s ← serviceUpdate probe s
  let s ← serviceMigration P s
  serviceBootloader P s

/-- The end of an iteration: a reboot whose response is out, or has been waited for long enough,
stops the loop before the engines are looked at. -/
def service (P : Platform) (probe : Probe) (s : Web) : FlashProg Web := do
  if s.pendingReboot && s.rebootResponseQueued then
    if rebootGraceMs ≤ (← getTimer s.rebootResponseQueuedAt) then
      logf .rebootGraceExpired
      return { s with stop := true }
  if s.pendingReboot && s.rebootRequestAt != 0 then
    if rebootForceMs ≤ (← getTimer s.rebootRequestAt) then
      logf .rebootForced
      return { s with stop := true }
  serviceEngines P probe s

/-! ## After the loop -/

def resetAttempts : List ℕ → FlashProg Unit
  | [] => logf .resetExhausted
  | attempt :: rest => do
    logf (.resetInvoked attempt)
    match ← issue .reset with
    -- a reset that works does not come back
    | none => return ()
    | some ret => do
      logf (.resetReturned attempt ret)
      resetAttempts rest

/-- The end of `do_ursusweb`. -/
def afterLoop (s : Web) : FlashProg Unit := do
  if s.networkFailed then return ()
  if s.pendingReboot then resetAttempts [1, 2, 3]
  else if s.pendingFactoryInstall then
    let ret ← factoryInstall s.img s.currentLayout
    if ret = 0 then
      let _ ← issue .reset
      return ()
    else return ()
  else if s.pendingExpertBoot then
    let _ ← issue (.bootm s.expertImg.addr)
    return ()
  else return ()

/-- The start of `do_ursusweb`: uploads, images and pending flags are cleared, the engines are
not. -/
def Web.restarted (s : Web) : Web :=
  { engines := s.engines, currentLayout := s.currentLayout, ubiDiag := s.ubiDiag }

/-! ## Events -/

inductive Input
  /-- The UART is polled; Ctrl-C is among the characters. -/
  | uart (ctrlC : Bool)
  | accept
  | recv (id : ℕ) (bs : List UInt8) (pump : Pump)
  | eof (id : ℕ)
  /-- lwIP hands over an error together with data. -/
  | recvError (id : ℕ)
  /-- `ursus_http_err`. -/
  | err (id : ℕ)
  /-- `ursus_http_sent` or `ursus_http_poll`; `acked` when nothing is outstanding. -/
  | ack (id : ℕ) (pump : Pump) (acked : Bool)
  /-- `ursus_rx_report` finds Ethernet inactive. -/
  | inactive
  | service (probe : Probe)
  | after
  /-- `ursusweb` is run again; `ok` when it comes up. -/
  | restart (probe : Probe) (ok : Bool)

def Host.setConn (h : Host) (id : ℕ) (r : Web × Option Conn) : Host :=
  { h with web := r.1, conns := Function.update h.conns id r.2 }

/-- The loop is left: removing the interface aborts what is still open. -/
def Host.exit (h : Host) : Host := { h with phase := .exited, conns := fun _ => none }

def Host.onConn (h : Host) (id : ℕ) (f : Conn → FlashProg (Web × Option Conn)) : FlashProg Host :=
  match h.conns id with
  | none => return h
  | some c => do return h.setConn id (← f c)

def Host.network (P : Platform) (L : FitLib) (h : Host) : Input → FlashProg Host
  | .accept => return { h with
      connId := h.connId + 1, conns := Function.update h.conns (h.connId + 1) (some {}) }
  | .recv id bs p => h.onConn id fun c => feedBytes P L p h.web c bs
  | .eof id => h.onConn id fun c => remoteEof h.web c
  | .recvError id => h.onConn id fun c => return (h.web.release c, none)
  | .err id => h.onConn id fun _ => return (h.web, none)
  | .ack id p acked => h.onConn id fun c =>
    if c.reply.isNone then return (h.web, some c)
    else do
      let r ← pumpConn p h.web c
      match r.2 with
      | some c' => return if c'.allQueued && acked then (r.1.release c', none) else r
      | none => return r
  | .inactive => do
    logf .networkInactive
    return { h with web := { h.web with networkFailed := true, stop := true } }
  | _ => return h

/-- What an event comes to, in the phase it belongs to. -/
def Host.react (P : Platform) (L : FitLib) (h : Host) (i : Input) : FlashProg Host :=
  match h.phase, i with
  | .top, .uart ctrlC =>
    if ctrlC then return ({ h with web := { h.web with stop := true } }).exit
    else return { h with phase := .net }
  | .net, .service probe => do
    let web ← service P probe h.web
    return if web.stop then ({ h with web }).exit else { h with web, phase := .top }
  | .net, i => h.network P L i
  | .exited, .after => do
    afterLoop h.web
    return h
  | .exited, .restart probe ok =>
    if ok then return { phase := .top, web := h.web.restarted.probed probe, connId := h.connId }
    else return { h with web := h.web.restarted }
  | _, _ => return h

structure Board where
  host : Host
  world : World

/-- The board has come up, and `ursusweb` has not been run yet. -/
def Board.powerOn (world : World) : Board := ⟨{ phase := .exited }, world⟩

/-- One event, with what the commands it causes come to. -/
def Board.step (P : Platform) (L : FitLib) (b : Board) (i : Input × (ℕ → Outcome)) : Board :=
  let r := Prog.run exec (b.host.react P L i.1) i.2 b.world
  ⟨r.val, r.world⟩

end UrsusBoot
