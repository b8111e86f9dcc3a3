import UrsusBoot.Format.Writer
import UrsusBoot.Lib.Run
import UrsusBoot.Web.Loop
import UrsusBoot.Web.Request

/-!
# What a client can bring about

Requests that lead WebFailsafe from one state to another while its loop runs, each on a connection
of its own.
-/

namespace UrsusBoot

open Prog

structure Serving (s : Web) (w : World) (b : Board) : Prop where
  phase : b.host.phase = .net
  web : b.host.web = s
  world : b.world = w

/-- Some events lead to a state in `Q` in which the loop still runs. -/
def Leads (P : Platform) (L : FitLib) (s : Web) (w : World) (Q : Web → World → Prop) : Prop :=
  ∀ b, Serving s w b →
    Reaches (Board.step P L) b fun b' => ∃ s' w', Serving s' w' b' ∧ Q s' w'

variable {R : Board → Prop}

section Leads

variable {P : Platform} {L : FitLib} {s : Web} {w : World} {Q : Web → World → Prop}

theorem leads_refl (h : Q s w) : Leads P L s w Q := by
  intro b hb
  exact reaches_refl ⟨s, w, hb, h⟩

theorem Leads.trans {M : Web → World → Prop} (h : Leads P L s w M)
    (h' : ∀ s' w', M s' w' → Leads P L s' w' Q) : Leads P L s w Q := by
  intro b hb
  apply (h b hb).trans
  rintro b' ⟨s', w', hb', hm⟩
  exact h' s' w' hm b' hb'

theorem reaches_of_may {b : Board} {i : Input}
    (h : May exec (fun h' w' _ => Reaches (Board.step P L) ⟨h', w'⟩ R) (b.host.react P L i)
      b.world []) : Reaches (Board.step P L) b R := by
  obtain ⟨outs, hrun⟩ := h.run_of
  exact Reaches.cons (i, outs) hrun

theorem reaches_accept {b : Board} (hb : b.host.phase = .net)
    (h : Reaches (Board.step P L) ⟨{ b.host with
      connId := b.host.connId + 1
      conns := Function.update b.host.conns (b.host.connId + 1) (some {}) }, b.world⟩ R) :
    Reaches (Board.step P L) b R := by
  have hreact : b.host.react P L .accept = .ret { b.host with
      connId := b.host.connId + 1
      conns := Function.update b.host.conns (b.host.connId + 1) (some {}) } := by
    simp only [Host.react, hb, Host.network, pure_def]
  apply reaches_of_may
  rw [hreact]
  exact h

theorem reaches_recv {b : Board} (id : ℕ) (c : Conn) (bs : List UInt8) (hb : b.host.phase = .net)
    (hc : b.host.conns id = some c)
    (h : May exec (fun r w' _ => Reaches (Board.step P L) ⟨b.host.setConn id r, w'⟩ R)
      (feedBytes P L .more b.host.web c bs) b.world []) : Reaches (Board.step P L) b R := by
  apply reaches_of_may (i := .recv id bs .more)
  simp only [Host.react, hb, Host.network, Host.onConn, hc]
  apply h.bind
  intro r w' _ hr
  rw [pure_def, may_ret]
  exact hr

theorem leads_recv (bs : List UInt8)
    (h : May exec (fun r w' _ => Q r.1 w') (feedBytes P L .more s {} bs) w []) :
    Leads P L s w Q := by
  intro b hb
  apply reaches_accept hb.phase
  refine reaches_recv (b.host.connId + 1) {} bs hb.phase (Function.update_self ..) ?_
  rw [hb.web, hb.world]
  apply h.mono
  intro r w' _ hq
  exact reaches_refl ⟨r.1, w', ⟨hb.phase, rfl, rfl⟩, hq⟩

variable {start : List UInt8} {fs : List Field}

/-- **A request** that is answered. -/
theorem leads_request (hstart : ∀ b ∈ start, Plain b) (hlen : (request start fs).length < httpHdrMax)
    (h : May exec (fun r w' _ => ∃ x, r = .served x ∧ Q x.web w')
      (routeReady P (request start fs) s) w []) : Leads P L s w Q := by
  apply leads_recv (request start fs)
  have hfeed : feedHeader [] (request start fs) = .complete (request start fs) [] := by
    rw [← List.append_nil (request start fs), feedHeader_request hstart hlen, List.append_nil]
  unfold feedBytes
  simp only [Option.isSome_none, Bool.false_eq_true, if_false, hfeed, Conn.header,
    cstr_request hstart]
  apply h.bind
  rintro r w' tr ⟨x, rfl, hq⟩
  exact hq

/-- **A chunk**, header and body in one segment. -/
theorem leads_chunk (hstart : ∀ b ∈ start, Plain b) (hlen : (request start fs).length < httpHdrMax)
    {ch : Chunk} (body : List UInt8)
    (hroute : May exec (fun r w' _ => r = .upload ch ∧ w' = w)
      (routeReady P (request start fs) s) w [])
    (h : ∀ tr, May exec (fun r w' _ => ∃ x, r = .served x ∧ Q x.web w')
      (receiveBody P L s ch body) w tr) : Leads P L s w Q := by
  apply leads_recv (request start fs ++ body)
  unfold feedBytes
  simp only [Option.isSome_none, Bool.false_eq_true, if_false, feedHeader_request hstart hlen,
    Conn.header, cstr_request hstart]
  apply hroute.bind
  rintro r w' tr ⟨rfl, rfl⟩
  apply (h tr).bind
  rintro r' w'' tr' ⟨x, rfl, hq⟩
  exact hq

/-- **The end of an iteration** and the start of the next. -/
theorem leads_service (probe : Probe)
    (h : May exec (fun s' w' _ => s'.stop = false ∧ Q s' w') (service P probe s) w []) :
    Leads P L s w Q := by
  intro b hb
  apply reaches_of_may (i := .service probe)
  simp only [Host.react, hb.phase]
  rw [hb.web, hb.world]
  apply h.bind
  rintro s' w' _ ⟨hstop, hq⟩
  simp only [hstop, Bool.false_eq_true, if_false, pure_def, may_ret]
  -- the UART is polled, without Ctrl-C
  apply reaches_of_may (i := .uart false)
  simp only [Host.react, Bool.false_eq_true, if_false, pure_def, may_ret]
  exact reaches_refl ⟨s', w', ⟨rfl, rfl, rfl⟩, hq⟩

structure Stopped (s : Web) (w : World) (b : Board) : Prop where
  phase : b.host.phase = .exited
  web : b.host.web = s
  world : b.world = w

/-- **Ctrl-C** after the iteration that is going on. -/
theorem reaches_ctrlC {b : Board} (probe : Probe) (hb : Serving s w b)
    (h : May exec (fun s' w' _ => s'.stop = false ∧ ∀ b', Stopped { s' with stop := true } w' b' →
      Reaches (Board.step P L) b' R) (service P probe s) w []) : Reaches (Board.step P L) b R := by
  apply reaches_of_may (i := .service probe)
  simp only [Host.react, hb.phase]
  rw [hb.web, hb.world]
  apply h.bind
  rintro s' w' _ ⟨hstop, hq⟩
  simp only [hstop, Bool.false_eq_true, if_false, pure_def, may_ret]
  apply reaches_of_may (i := .uart true)
  simp only [Host.react, if_true, pure_def, may_ret]
  exact hq _ ⟨rfl, rfl, rfl⟩

theorem reaches_restart {b : Board} (probe : Probe) (hb : Stopped s w b)
    (h : ∀ b', b'.host.phase = .top → b'.host.web = s.restarted.probed probe → b'.world = w →
      Reaches (Board.step P L) b' R) : Reaches (Board.step P L) b R := by
  apply reaches_of_may (i := .restart probe true)
  simp only [Host.react, hb.phase, if_true, pure_def, may_ret]
  rw [hb.web, hb.world]
  exact h _ rfl rfl rfl

end Leads

/-! ## Uploads -/

theorem Web.begun_session {k : UploadKind} (s : Web) (u : UploadSession k) :
    (s.begun u).session k = u := by
  cases k <;>
    simp [Web.begun, UploadKind.partner, Web.clearSession, Web.setSession, Web.invalidate]

/-- What a client says of a file it uploads in one chunk. -/
structure Upload where
  kind : UploadKind
  body : List UInt8
  /-- The size, as text. -/
  digits : List UInt8
  generation : List UInt8
  filename : List UInt8
  nonempty : body ≠ []
  fits : body.length ≤ kind.maxLen
  short : body.length ≤ uploadChunkMax
  digits_visible : ∀ b ∈ digits, Visible b
  digits_short : digits ≠ [] ∧ digits.length < 32
  digits_read : simpleStrtoul digits = (body.length, [])
  generation_visible : ∀ b ∈ generation, Visible b
  generation_valid : generationValid generation = true
  filename_visible : ∀ b ∈ filename, Visible b
  filename_short : filename ≠ [] ∧ filename.length < filenameMax
  filename_decoded : decodeFilename filename filenameMax = some filename

namespace Upload

variable (u : Upload)

def beginPath : UploadKind → String
  | .firmware => "POST /api/firmware-begin "
  | .initramfs => "POST /api/initramfs-begin "
  | .ubiPreloader => "POST /api/ubi-preloader-begin "
  | .ursusFip => "POST /api/ursus-fip-begin "
  | .vanillaFip => "POST /api/vanilla-fip-begin "

def chunkPath : UploadKind → String
  | .firmware => "POST /api/firmware-chunk "
  | .initramfs => "POST /api/initramfs-chunk "
  | .ubiPreloader => "POST /api/ubi-preloader-chunk "
  | .ursusFip => "POST /api/ursus-fip-chunk "
  | .vanillaFip => "POST /api/vanilla-fip-chunk "

theorem beginPath_mem (k : UploadKind) : (beginPath k, Route.begin k) ∈ endpoints := by
  cases k <;> simp [beginPath, endpoints]

theorem chunkPath_mem (k : UploadKind) : (chunkPath k, Route.chunk k) ∈ endpoints := by
  cases k <;> simp [chunkPath, endpoints]

def beginFields : List Field :=
  [FieldName.total.field u.digits u.digits_visible,
   FieldName.generation.field u.generation u.generation_visible,
   FieldName.filename.field u.filename u.filename_visible]

/-- The header of a first chunk whose size reads `ds`. -/
def partFields (ds : List UInt8) (hds : ∀ b ∈ ds, Visible b) : List Field :=
  [FieldName.length.field ds hds,
   FieldName.offset.field [0x30] (forall_mem_of_all rfl),
   FieldName.total.field u.digits u.digits_visible,
   FieldName.generation.field u.generation u.generation_visible]

def chunkFields : List Field := u.partFields u.digits u.digits_visible

def session : UploadSession u.kind :=
  .fresh u.kind u.body.length u.generation u.filename u.fits

/-- The chunk that carries the first `n` bytes of the file. -/
def part (n : ℕ) (hn : n ≤ u.body.length) : Chunk :=
  ⟨u.kind, u.kind.stageAddr, 0, u.body.length, n, 0, u.generation, rfl, by
    simpa using hn.trans u.fits, Nat.zero_le _⟩

def chunk : Chunk := u.part u.body.length le_rfl

def received : UploadSession u.kind := (u.session.receive u.body.length).close

theorem generation_length : u.generation ≠ [] ∧ u.generation.length < generationMax := by
  have h := u.generation_valid
  simp only [generationValid, Bool.and_eq_true, decide_eq_true_eq] at h
  refine ⟨?_, h.1.2⟩
  rintro hnil
  rw [hnil] at h
  exact absurd h.1.1 (by decide)

variable {P : Platform} {L : FitLib} {s : Web} {w : World} {Q : Web → World → Prop}

theorem length_beginFields :
    (request (asciiBytes (beginPath u.kind)) u.beginFields).length < httpHdrMax := by
  have hpath : (asciiBytes (beginPath u.kind)).length ≤ 30 := by
    cases u.kind <;> decide
  have hhttp : (asciiBytes "HTTP/1.1").length = 8 := by decide
  have hg : u.generation.length < 48 := u.generation_length.2
  have hd := u.digits_short.2
  have hf : u.filename.length < 192 := u.filename_short.2
  show _ < 2048
  simp only [request, beginFields, List.length_append, List.flatMap_cons, List.flatMap_nil,
    Field.line, FieldName.field, FieldName.bytes, crlf, List.length_cons, List.length_nil, hhttp]
  omega

theorem length_partFields {ds : List UInt8} (hds : ∀ b ∈ ds, Visible b) (hshort : ds.length < 32) :
    (request (asciiBytes (chunkPath u.kind)) (u.partFields ds hds)).length < httpHdrMax := by
  have hpath : (asciiBytes (chunkPath u.kind)).length ≤ 30 := by
    cases u.kind <;> decide
  have hhttp : (asciiBytes "HTTP/1.1").length = 8 := by decide
  have hg : u.generation.length < 48 := u.generation_length.2
  have hd := u.digits_short.2
  show _ < 2048
  simp only [request, partFields, List.length_append, List.flatMap_cons, List.flatMap_nil,
    Field.line, FieldName.field, FieldName.bytes, crlf, List.length_cons, List.length_nil, hhttp]
  omega

theorem leads_begin : Leads P L s w fun s' w' => s' = s.begun u.session ∧ w' = w := by
  have hstart : ∀ b ∈ asciiBytes (beginPath u.kind), Plain b :=
    endpoints_plain _ (beginPath_mem u.kind)
  apply leads_request hstart u.length_beginFields
  have htotal : parseHeaderUlong (request (asciiBytes (beginPath u.kind)) u.beginFields)
      "X-Ursus-Total" = some u.body.length :=
    FieldName.parseHeaderUlong_some (n := .total) hstart (FieldName.lookupField_self _)
      u.digits_short.1 u.digits_short.2 u.digits_read
  have hgen : parseHeaderValue (request (asciiBytes (beginPath u.kind)) u.beginFields)
      "X-Ursus-Generation" generationMax = some u.generation := by
    apply FieldName.parseHeaderValue_some (n := .generation) hstart _ u.generation_length.1
      u.generation_length.2
    rw [beginFields, FieldName.lookupField_ne _ (by decide), FieldName.lookupField_self]
  have hname : parseHeaderValue (request (asciiBytes (beginPath u.kind)) u.beginFields)
      "X-Ursus-Filename" (filenameMax * 3) = some u.filename := by
    apply FieldName.parseHeaderValue_some (n := .filename) hstart _ u.filename_short.1
      (lt_of_lt_of_le u.filename_short.2 (by decide))
    rw [beginFields, FieldName.lookupField_ne _ (by decide), FieldName.lookupField_ne _ (by decide),
      FieldName.lookupField_self]
  have hpos : u.body.length ≠ 0 := by simpa using u.nonempty
  unfold routeReady
  rw [ofHeader_request (beginPath_mem u.kind)]
  simp only [beginUpload, htotal, Option.getD_some, hpos, if_false, hgen, Option.filter_some,
    u.generation_valid, if_true, hname, Option.bind_some, u.filename_decoded]
  rw [dif_neg (Nat.not_lt.2 u.fits)]
  exact may_next .ok ⟨_, rfl, rfl, rfl⟩

theorem may_announce (hs : s.session u.kind = u.session) {ds : List UInt8} {n : ℕ}
    (hds : ∀ b ∈ ds, Visible b) (hshort : ds ≠ [] ∧ ds.length < 32)
    (hread : simpleStrtoul ds = (n, [])) (hpos : n ≠ 0) (hn : n ≤ u.body.length)
    (tr : List FlashEvent) :
    May exec (fun r w' _ => r = .upload (u.part n hn) ∧ w' = w)
      (routeReady P (request (asciiBytes (chunkPath u.kind)) (u.partFields ds hds)) s) w tr := by
  have hstart : ∀ b ∈ asciiBytes (chunkPath u.kind), Plain b :=
    endpoints_plain _ (chunkPath_mem u.kind)
  have hlen : parseHeaderUlong (request (asciiBytes (chunkPath u.kind)) (u.partFields ds hds))
      "Content-Length" = some n :=
    FieldName.parseHeaderUlong_some (n := .length) hstart (FieldName.lookupField_self _) hshort.1
      hshort.2 hread
  have hoff : parseHeaderUlong (request (asciiBytes (chunkPath u.kind)) (u.partFields ds hds))
      "X-Ursus-Offset" = some 0 := by
    apply FieldName.parseHeaderUlong_some (n := .offset) (v := [0x30]) hstart _ (by decide)
      (by decide) (by decide)
    rw [partFields, FieldName.lookupField_ne _ (by decide), FieldName.lookupField_self]
  have htotal : parseHeaderUlong (request (asciiBytes (chunkPath u.kind)) (u.partFields ds hds))
      "X-Ursus-Total" = some u.body.length := by
    apply FieldName.parseHeaderUlong_some (n := .total) hstart _ u.digits_short.1 u.digits_short.2
      u.digits_read
    rw [partFields, FieldName.lookupField_ne _ (by decide), FieldName.lookupField_ne _ (by decide),
      FieldName.lookupField_self]
  have hgen : parseHeaderValue (request (asciiBytes (chunkPath u.kind)) (u.partFields ds hds))
      "X-Ursus-Generation" generationMax = some u.generation := by
    apply FieldName.parseHeaderValue_some (n := .generation) hstart _ u.generation_length.1
      u.generation_length.2
    rw [partFields, FieldName.lookupField_ne _ (by decide), FieldName.lookupField_ne _ (by decide),
      FieldName.lookupField_ne _ (by decide), FieldName.lookupField_self]
  have hsmall := u.short
  have hfits := u.fits
  unfold routeReady
  rw [ofHeader_request (chunkPath_mem u.kind)]
  simp only [prepareChunk, hlen, hoff, htotal, hgen, Option.getD_some, hs]
  rw [if_neg (by omega), dif_neg (by simp [session, UploadSession.fresh]),
    if_neg (by simp [session, UploadSession.fresh]), if_neg (by simp [session, UploadSession.fresh]),
    if_neg (by simp [session, UploadSession.fresh]), if_neg (by omega),
    dif_neg (by simp only [session, UploadSession.fresh]; omega)]
  exact ⟨rfl, rfl⟩

theorem may_receive (hs : s.session u.kind = u.session) (tr : List FlashEvent)
    (h : ∀ tr, May exec (fun x w' _ => Q x.web w')
      (completeUpload P L (s.setSession u.received) u.kind)
      { w with ram := w.ram.blit u.kind.stageAddr u.body } tr) :
    May exec (fun r w' _ => ∃ x, r = .served x ∧ Q x.web w') (receiveBody P L s u.chunk u.body) w
      tr := by
  have hpos : u.body.length ≠ 0 := by simpa using u.nonempty
  have htake : u.chunk.take u.body.length = u.body.length := by simp [Chunk.take, chunk, part]
  have hadv : (u.chunk.advance u.body.length).received = u.body.length := by
    simp [Chunk.advance, Chunk.take, chunk, part]
  have hdone : (u.chunk.advance u.body.length).offset + (u.chunk.advance u.body.length).contentLen =
      u.body.length := Nat.zero_add _
  have haddr : u.chunk.addr + u.chunk.offset + u.chunk.received = u.kind.stageAddr := rfl
  unfold receiveBody
  have hsession : s.session u.chunk.kind = u.session := hs
  simp only [u.nonempty, if_false, hsession]
  rw [if_neg (by simp [session, UploadSession.fresh]), htake, if_pos hpos, haddr, List.take_length]
  apply may_next .ok
  simp only [hadv]
  rw [if_neg (by simp [Chunk.advance, chunk, part]), if_neg (by
    simp [Chunk.advance, chunk, part, session, UploadSession.fresh]), if_pos (by
    simp [Chunk.advance, chunk, part, session, UploadSession.fresh, UploadSession.receive])]
  simp only [hdone]
  apply may_next .ok
  apply (h _).bind
  intro x w' _ hq
  exact ⟨x, rfl, hq⟩

/-- **A whole upload**: what its validation comes to is where it leads. -/
theorem leads_upload
    (h : ∀ tr, May exec (fun x w' _ => Q x.web w')
      (completeUpload P L ((s.begun u.session).setSession u.received) u.kind)
      { w with ram := w.ram.blit u.kind.stageAddr u.body } tr) : Leads P L s w Q := by
  apply u.leads_begin.trans
  rintro s' w' ⟨rfl, rfl⟩
  have hs : (s.begun u.session).session u.kind = u.session := Web.begun_session s u.session
  have hpos : u.body.length ≠ 0 := by simpa using u.nonempty
  exact leads_chunk (endpoints_plain _ (chunkPath_mem u.kind))
    (u.length_partFields u.digits_visible u.digits_short.2) u.body
    (u.may_announce hs u.digits_visible u.digits_short u.digits_read hpos le_rfl [])
    fun tr => u.may_receive hs tr h

end Upload

theorem reaches_first {P : Platform} {L : FitLib} {w : World} (probe : Probe)
    (h : ∀ b, Serving (({} : Web).restarted.probed probe) w b → Reaches (Board.step P L) b R) :
    Reaches (Board.step P L) (Board.powerOn w) R := by
  apply reaches_of_may (i := .restart probe true)
  show Reaches (Board.step P L)
    ⟨{ phase := .top, web := ({} : Web).restarted.probed probe, connId := 0 }, w⟩ R
  apply reaches_of_may (i := .uart false)
  exact h _ ⟨rfl, rfl, rfl⟩

end UrsusBoot
