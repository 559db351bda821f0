import TlsGate.Proofs.Http.Segmentation
import TlsGate.Proofs.Http.Trailers
import TlsGate.Proofs.Server.Freshness
import TlsGate.Proofs.Tls.Fidelity

/-!
Transparency of a secured gate. A handler that serves HTTP on a stream that the gate has secured
does what it does on a plain transport that gives the data of the client as they are: it calls the
application alike, and the client reads what it would be sent in the clear. This is so with both
kinds of streams, for whatever records the client has cut its data into. A trailer section that is
too long to wait for its end is the exception: there the records of the client show.
-/

set_option autoImplicit false
set_option relaxedAutoImplicit false

namespace TlsGate

variable {σ τ : Type}

/-! ## What a stream has taken -/

structure ByteStream.TakesAll (io : ByteStream σ) (P : Bytes → σ → Prop) : Prop where
  receive {b : Bytes} {s : σ} : P b s → P b (io.receive Http.receiveSize s).2
  send {b data : Bytes} {s : σ} : data ≠ [] → P b s →
    (io.send data s).1 = none ∧ P (b ++ data) (io.send data s).2

namespace Http

variable {P : Bytes → σ → Prop} {b : Bytes} {s : σ}

def Run.Adds (run : Run σ τ) (P : Bytes → σ → Prop) (b : Bytes) : Prop :=
  P (b ++ run.output) run.stream

theorem Run.Adds.after {run : Run σ τ} {events : List Event}
    (h : run.Adds P (b ++ events.flatMap Event.output)) : (run.after events).Adds P b := by
  have hadds : P (b ++ events.flatMap Event.output ++ run.output) run.stream := h
  have houtput : (run.after events).output = events.flatMap Event.output ++ run.output :=
    List.flatMap_append
  rw [Run.Adds, houtput, ← List.append_assoc]
  exact hadds

private theorem Run.adds_of_silent {run : Run σ τ} (hsilent : run.output = [])
    (h : P b run.stream) :
    run.Adds P b := by
  rw [Run.Adds, hsilent, List.append_nil]
  exact h

theorem Run.Adds.after_silent {run : Run σ τ} {events : List Event} (h : run.Adds P b)
    (hsilent : events.flatMap Event.output = []) : (run.after events).Adds P b := by
  apply Run.Adds.after
  rw [hsilent, List.append_nil]
  exact h

section TakesAll

variable {io : ByteStream σ} (hio : io.TakesAll P)
include hio

private theorem sendAll_adds (pieces : List Bytes) (hpieces : ∀ piece ∈ pieces, piece ≠ [])
    (h : P b s) :
    (sendAll io pieces s).2.1 = none ∧
      P (b ++ (sendAll io pieces s).1.flatMap Event.output) (sendAll io pieces s).2.2 := by
  induction pieces generalizing b s with
  | nil =>
    refine ⟨rfl, ?_⟩
    rw [show (sendAll io [] s).1.flatMap Event.output = [] from rfl, List.append_nil]
    exact h
  | cons piece others ih =>
    obtain ⟨hnone, hsent⟩ := hio.send (hpieces piece List.mem_cons_self) h
    rcases hsend : io.send piece s with ⟨fault, t⟩
    rw [hsend] at hnone hsent
    simp only at hnone hsent
    subst hnone
    obtain ⟨hothers, hadds⟩ := ih (fun x hx => hpieces x (List.mem_cons_of_mem _ hx)) hsent
    rw [List.append_assoc] at hadds
    simp only [sendAll, hsend]
    exact ⟨hothers, hadds⟩

private theorem sendReply_adds (peer : Peer) (r : Response) (a : τ) {next : σ → Run σ τ}
    (hnext : ∀ b s, P b s → (next s).Adds P b) (h : P b s) :
    (sendReply io (transmit peer r) s a next).Adds P b := by
  obtain ⟨hnone, hsent⟩ := sendAll_adds hio (transmit peer r).pieces (transmit_pieces peer r) h
  rw [sendReply_eq]
  apply Run.Adds.after
  rw [hnone]
  cases hfault : (transmit peer r).fault with
  | some why =>
    simp only [Transmission.settle, hfault]
    exact Run.adds_of_silent rfl hsent
  | none =>
    simp only [Transmission.settle, hfault]
    split
    · exact hnext _ _ hsent
    · exact Run.adds_of_silent rfl hsent

private theorem serve_adds (app : Application τ) (limit : Int) (steps : Nat) (p : Progress)
    (i : Inbox)
    (a : τ) (h : P b s) : (serve app limit io steps p i s a).Adds P b := by
  -- on the steps; receiving adds nothing, and replies add what they send
  induction steps generalizing p i a b s with
  | zero => exact Run.adds_of_silent rfl h
  | succ steps ih =>
    cases hread : readOn limit p i with
    | waiting q j =>
      have hreceived := hio.receive h
      rw [serve_of_waiting hread]
      split <;> rename_i hreceive <;> rw [hreceive] at hreceived
      · exact (ih _ _ _ hreceived).after_silent rfl
      · exact (ih _ _ _ hreceived).after_silent rfl
      · rename_i fault t hended
        have hstop : (stopAt fault t a).Adds P b := by
          cases fault <;> exact Run.adds_of_silent rfl hreceived
        exact hstop.after_silent rfl
    | finished =>
      rw [serve_of_finished hread]
      exact Run.adds_of_silent rfl h
    | refused fault q =>
      rw [serve_of_refused hread]
      refine Run.Adds.after_silent ?_ rfl
      exact sendReply_adds hio _ _ _ (fun _ _ hs => Run.adds_of_silent rfl hs) h
    | request head body j =>
      rw [serve_of_request hread]
      refine Run.Adds.after_silent ?_ rfl
      cases (app.answer (head.request body) a).1 with
      | response r => exact sendReply_adds hio _ _ _ (fun _ _ hs => ih _ _ _ hs) h
      | nothing => exact Run.adds_of_silent rfl h
      | raised name =>
        simp only [Answer.deliver]
        split
        · exact Run.adds_of_silent rfl h
        · refine Run.Adds.after_silent ?_ rfl
          exact sendReply_adds hio _ _ _ (fun _ _ hs => ih _ _ _ hs) h

end TakesAll

end Http

namespace Tls

/-! ## Secured streams beside plain ones -/

variable {ε : Type}

/-- A secured stream is going to give some data, and the plain one beside it gives nothing and takes
everything. -/
structure Channel.Mirrors (serves : ε → Traffic → Prop) (whole : Bool) (before : Bytes)
    (plain : Bytes) (c : Channel ε) (s : Script) : Prop where
  idle : s.items = []
  isOpen : s.sendsLeft = none
  holds : ∃ t, t.plain = plain ∧ c.Holds whole before serves t

def Channel.HasTaken (serves : ε → Traffic → Prop) (whole : Bool) (before : Bytes) (taken : Bytes)
    (c : Channel ε) : Prop :=
  ∃ t, t.taken = taken ∧ c.Holds whole before serves t

section Faithful

variable {io : Engine ε} {greets serves : ε → Traffic → Prop} {whole : Bool} {read : Bytes → Bytes}
variable (hio : io.Faithful greets serves whole read) (before : Bytes)
include hio

theorem Channel.feeds : (Channel.stream io).Feeds (Mirrors serves whole before) where
  takes plain := by
    rintro data c s hdata ⟨hidle, hopen, t, hplain, hholds⟩
    obtain ⟨hnone, t', hplain', -, hholds'⟩ := send_outcome hio hdata hholds
    have hsend : Script.send data s = (none, { s with sent := data :: s.sent }) := by
      simp only [Script.send, hopen, Option.map_none]
    simp only [Channel.stream, Script.stream, hsend]
    exact ⟨hnone, hidle, hopen, t', hplain'.trans hplain, hholds'⟩
  idle h := h.idle
  gives := by
    rintro plain c s ⟨hidle, hopen, t, rfl, hholds⟩ hne
    have hsize : 0 < Http.receiveSize := by decide
    obtain ⟨t', -, hholds', hresult⟩ := receive_outcome hio hsize hholds
    rcases hresult with ⟨data, hresult, hdata, hleft⟩ | ⟨-, hnil, -⟩
    · exact ⟨data, t'.plain, _, Prod.ext hresult rfl, hdata, hleft, hidle, hopen, t', rfl, hholds'⟩
    · exact absurd hnil hne
  ends := by
    rintro c s ⟨hidle, hopen, t, hplain, hholds⟩
    have hsize : 0 < Http.receiveSize := by decide
    obtain ⟨t', -, hholds', hresult⟩ := receive_outcome hio hsize hholds
    rcases hresult with ⟨data, -, hdata, hleft⟩ | ⟨hresult, -, hnil⟩
    · rw [hplain] at hleft
      exact absurd (List.append_eq_nil_iff.1 hleft).1 hdata
    · refine ⟨_, Prod.ext hresult rfl, ?_, ?_, t', hnil, hholds'⟩
      · simp only [Script.stream, Script.receive, hidle]
      · simp only [Script.stream, Script.receive, hidle, hopen]

private theorem Channel.takesAll : (Channel.stream io).TakesAll (HasTaken serves whole before) where
  receive := by
    rintro taken c ⟨t, rfl, hholds⟩
    have hsize : 0 < Http.receiveSize := by decide
    obtain ⟨t', htaken, hholds', -⟩ := receive_outcome hio hsize hholds
    exact ⟨t', htaken, hholds'⟩
  send := by
    rintro taken data c hdata ⟨t, rfl, hholds⟩
    obtain ⟨hnone, t', -, htaken, hholds'⟩ := send_outcome hio hdata hholds
    exact ⟨hnone, t', htaken, hholds'⟩

end Faithful

end Tls

namespace Server

open Tls

variable {ε : Type}

private theorem Gate.pass_holds [Yaml.Room] [Pki.KeyLibrary] {stack : Stack ε}
    {greets serves : Bool → ε → Traffic → Prop}
    {read : Bytes → Bytes}
    (hfaithful : ∀ whole, stack.engine.Faithful (greets whole) (serves whole) whole read)
    {source : PolicySource} {protocols? : Option (List String)} {fs : FileSystem} {a : Arrival}
    (hopen : a.transport.sendsLeft = none) {arriving plain : Bytes} {others : List ScriptItem}
    (harrives : a.transport.Arrives arriving others)
    (hclient : ∀ c, greets (!c.hasCallback) (stack.start c a.offer) { arriving, plain })
    {channel : Channel ε}
    (hpass : ((Gate.secured source).pass stack protocols? fs a).result = .ok channel) :
    ∃ whole t, t.plain = plain ∧ t.taken = [] ∧
      channel.Holds whole a.transport.output (serves whole) t := by
  simp only [Gate.pass] at hpass
  split at hpass
  · cases hpass
  · rename_i policy hpolicy
    split at hpass
    · cases hpass
    · rename_i context hcontext
      split at hpass
      · cases hpass
      · rename_i channel' hwrap
        cases hpass
        obtain ⟨t, hplain, htaken, hholds⟩ :=
          Stack.wrap_holds (hfaithful _) hopen harrives rfl (hclient context) hwrap
        exact ⟨_, t, hplain, htaken, hholds⟩

/-- Serving a connection that has been accepted by a secured gate is like serving the data of its
client on a plain transport, if its engine is faithful: the requests, what is sent, the end of the
run and the state of the application are the same, and what the client reads on its transport is
what is sent. The client closes its side after its data, and no head, chunk size line or trailer
section of them is too long to wait for. -/
theorem serves_as_plain [Yaml.Room] [Pki.KeyLibrary] {stack : Stack ε}
    {greets serves : Bool → ε → Traffic → Prop} {read : Bytes → Bytes}
    (hfaithful : ∀ whole, stack.engine.Faithful (greets whole) (serves whole) whole read)
    (app : Http.Application τ) (limit : Int) (source : PolicySource)
    (protocols? : Option (List String)) (fs : FileSystem) (a : Arrival)
    (hopen : a.transport.sendsLeft = none) {arriving plain : Bytes} {others : List ScriptItem}
    (harrives : a.transport.Arrives arriving others)
    (hclient : ∀ c, greets (!c.hasCallback) (stack.start c a.offer) { arriving, plain })
    (steps : Channel ε → Nat) (passed : Nat) (application : τ) (channel : Channel ε)
    (haccepted : (receive stack (httpHandler stack.engine app limit steps) protocols?
      (.secured source) fs passed application a).given? = some channel)
    (hsteps : 2 * plain.length + 1 < steps channel)
    (transport : Script) (hplain : transport.sendsLeft = none) (cut : List Bytes)
    (hcut : ∀ piece ∈ cut, piece ≠ []) (hflat : cut.flatten = plain)
    (hfit : Http.Place.head.Fits plain) :
    let visit := receive stack (httpHandler stack.engine app limit steps) protocols?
      (.secured source) fs passed application a
    let run := Http.serve app limit (Channel.stream stack.engine) (steps channel) .head {} channel
      application
    let run' := Http.serveCut app limit transport cut application
    run.outcome ≠ none ∧ run.outcome = run'.outcome ∧ run.requests = run'.requests ∧
      run.output = run'.output ∧ run.conversation = run'.conversation ∧
      run.application = run'.application ∧ visit.state = run.application ∧
      visit.final = run.stream.close ∧
      ∃ b, visit.final.transport.output = a.transport.output ++ b ∧ read b = run'.output := by
  intro visit run run'
  have hpass := (receive_given_iff (.secured source) channel).1 haccepted
  obtain ⟨whole, t, htplain, httaken, hholds⟩ :=
    Gate.pass_holds hfaithful hopen harrives hclient hpass
  have hio := hfaithful whole
  -- both runs are compared with one that has all the data in its buffer
  have hmirrors : channel.Mirrors (serves whole) whole a.transport.output plain
      (transport.feed []) := ⟨rfl, hplain, t, htplain, hholds⟩
  have hended : run.outcome ≠ none := by
    refine Http.serve_fed_ends (Channel.feeds hio _) hmirrors ?_
    simpa [Http.Progress.lack] using hsteps
  have hfed := Http.serve_fed (p := .head) (i := {}) (Channel.feeds hio _) hmirrors rfl hfit hended
    (Http.serve_gathered_ends app limit transport plain application)
  subst hflat
  have hcut' := Http.serveCut_equals app limit transport application hcut hfit
  have hconversation : run.conversation = run'.conversation :=
    hfed.conversation.trans hcut'.conversation.symm
  have houtput : run.output = run'.output := by
    rw [Http.Run.output_eq, Http.Run.output_eq, hconversation]
  have hfinal : visit.final = run.stream.close := by
    simp only [visit, receive, hpass, handle_final]
    rfl
  have hstate : visit.state = run.application := by
    simp only [visit, receive, hpass, handle_state]
    rfl
  -- what the stream has taken is what the run has sent, and the client reads what was taken
  obtain ⟨t', htaken', hholds'⟩ : run.Adds (Channel.HasTaken (serves whole) whole
      a.transport.output) [] :=
    Http.serve_adds (Channel.takesAll hio _) app limit _ _ _ _ ⟨t, httaken, hholds⟩
  obtain ⟨hemitted, e, hserves⟩ := hholds'.output
  have hread : read t'.emitted = run'.output := by
    rw [hio.read hserves, htaken', List.nil_append, houtput]
  refine ⟨hended, hfed.outcome.trans hcut'.outcome.symm, ?_, houtput, hconversation,
    hfed.application.trans hcut'.application.symm, hstate, hfinal, t'.emitted, ?_, hread⟩
  · rw [Http.Run.requests_eq, Http.Run.requests_eq, hconversation]
  · rw [hfinal, Channel.close_output, hemitted]

def coordinate (n : Nat) : Bytes :=
  (List.range 32).reverse.map fun i => (n >>> (8 * i)).toUInt8

def plainCertificate : Pki.Certificate where
  encoded := []
  signed := []
  version := 2
  serial := [1]
  issuer := ⟨[0x30, 0], []⟩
  notBefore := ⟨⟨2000, 1, 1⟩, 0, 0, 0, 0, none⟩
  notAfter := ⟨⟨2100, 1, 1⟩, 0, 0, 0, 0, none⟩
  subject := ⟨[0x30, 0], []⟩
  keyAlgorithm :=
    { id := Pki.ObjectId.ec
      parameters? := some ⟨Pki.Der.Tag.objectId, Crypto.Curve.p256.id, []⟩ }
  key := 4 :: (coordinate Crypto.Curve.p256.baseX ++ coordinate Crypto.Curve.p256.baseY)
  extensions := []
  signatureAlgorithm := { id := Pki.ObjectId.ecdsaSha256 }
  signature := []

def requestingPolicy : Policy.SecurityPolicy where
  provider? := some <| .fixed
    { certPath := "cert.pem", keyPath := "key.pem", leaf := plainCertificate, others := []
      key := .ec Crypto.Curve.p256 1 Crypto.Curve.p256.baseX Crypto.Curve.p256.baseY }
  clientAuth := .request

local instance recordedRoom : Yaml.Room := .ofCalls 960

local instance recordedKeys : Pki.KeyLibrary := .standard

def recordedInput : Bytes :=
  Record.sealed Record.dataKind (Http.chunkedInput.take 70) ++
    (Record.sealed Record.dataKind [] ++
      (Record.sealed Record.dataKind (Http.chunkedInput.drop 70) ++ (Record.closure ++ [])))

private theorem sealed_recordedInput : Record.Sealed recordedInput Http.chunkedInput := by
  have hsealed : Record.Sealed recordedInput
      (Http.chunkedInput.take 70 ++ ([] ++ (Http.chunkedInput.drop 70 ++ []))) :=
    .record (by decide +kernel) (.record (by decide) (.record (by decide +kernel) (.closed [])))
  rwa [List.append_nil, List.nil_append, List.take_append_drop] at hsealed

def recordedBytes : Bytes := Record.hello ++ Record.finished ++ recordedInput

def recordedArrival : Arrival where
  transport :=
    { items := [.data (recordedBytes.take 30), .data (recordedBytes.drop 30),
        .fault (.broken .lost)] }

def recordedVisit : Visit Session Nat :=
  receive (Session.stack { verdicts := fun _ _ _ => [] })
    (httpHandler Session.engine (Http.canned [.echo]) 16 fun _ => 1000) none
    (.secured (.fixed requestingPolicy)) {} 0 0 recordedArrival

/-- The request of the client is served as it is on a transport that gives it bytewise. -/
theorem serves_as_plain_recorded :
    let cut := Http.chunkedInput.map fun b => [b]
    let run' := Http.serveCut (Http.canned [.echo]) 16 {} cut 0
    (recordedArrival.transport.sendsLeft = none ∧ (∀ piece ∈ cut, piece ≠ []) ∧
      cut.flatten = Http.chunkedInput ∧ Http.Place.head.Fits Http.chunkedInput) ∧
    run'.requests.length = 1 ∧ ∃ channel, recordedVisit.given? = some channel ∧
      (Http.serve (Http.canned [.echo]) 16 (Channel.stream Session.engine) 1000 .head {} channel
        0).requests = run'.requests ∧
      Record.dataOf (recordedVisit.final.transport.output) = run'.output := by
  intro cut run'
  have hcut : ∀ piece ∈ cut, piece ≠ [] := by decide +kernel
  have hflat : cut.flatten = Http.chunkedInput := by decide +kernel
  have hfit : Http.Place.head.Fits Http.chunkedInput :=
    Http.Place.fits_of_length (by decide +kernel)
  have haccepted : recordedVisit.given?.isSome = true := by decide +kernel
  obtain ⟨channel, hgiven⟩ := Option.isSome_iff_exists.1 haccepted
  have harrives : recordedArrival.transport.Arrives recordedBytes [.fault (.broken .lost)] := by
    refine ⟨[recordedBytes.take 30, recordedBytes.drop 30], by decide +kernel, rfl, ?_⟩
    rw [List.flatten_cons, List.flatten_singleton, List.take_append_drop]
  obtain ⟨-, -, hrequests, -, -, -, -, -, b, houtput, hread⟩ :=
    serves_as_plain Session.faithful (Http.canned [.echo]) 16 (.fixed requestingPolicy) none {}
      recordedArrival rfl harrives
      (fun c => Session.greets_make _ c recordedArrival.offer sealed_recordedInput)
      (fun _ => 1000) 0 0 channel hgiven (by decide +kernel) {} rfl cut hcut hflat hfit
  refine ⟨⟨rfl, hcut, hflat, hfit⟩, by decide +kernel, channel, hgiven, hrequests, ?_⟩
  have hsent : recordedVisit.final.transport.output = b := houtput
  rw [hsent]
  exact hread

/-! ## Long trailer sections -/

def pieceEngine : Engine (List Bytes) where
  handshake pieces := { attempt := .done (), next := pieces }
  receive size
    | [] => { attempt := .closed, next := [] }
    | piece :: others =>
      { attempt := .done (piece.take size)
        next := if piece.length ≤ size then others else piece.drop size :: others }
  send data pieces := { attempt := .done data.length, emitted := data, next := pieces }
  feed _ pieces := pieces
  finish pieces := pieces

/-- The engine with the data of its client. -/
structure HoldsPieces (pieces : List Bytes) (t : Traffic) : Prop where
  nonempty : ∀ piece ∈ pieces, piece ≠ []
  plain : t.plain = pieces.flatten
  taken : t.emitted = t.taken

private theorem pieceEngine_faithful (whole : Bool) :
    pieceEngine.Faithful HoldsPieces HoldsPieces whole id where
  feedGreeting h _ := ⟨h.nonempty, h.plain, h.taken⟩
  feed h _ := ⟨h.nonempty, h.plain, h.taken⟩
  handshake := by
    rintro pieces t ⟨hne, hplain, htaken⟩
    exact ⟨hne, hplain, (List.append_nil _).trans htaken⟩
  receive := by
    rintro pieces t size hsize ⟨hne, hplain, htaken⟩
    cases pieces with
    | nil => exact ⟨hplain, hne, hplain, (List.append_nil _).trans htaken⟩
    | cons piece others =>
      have hpiece := hne piece List.mem_cons_self
      have hothers : ∀ x ∈ others, x ≠ [] := fun x hx => hne x (List.mem_cons_of_mem _ hx)
      have htake : piece.take size ≠ [] := by
        simp only [ne_eq, List.take_eq_nil_iff, hpiece, or_false]
        omega
      rw [List.flatten_cons] at hplain
      by_cases hle : piece.length ≤ size
      · simp only [pieceEngine, if_pos hle]
        rw [List.take_of_length_le hle]
        exact ⟨hpiece, others.flatten, hplain, hothers, rfl, (List.append_nil _).trans htaken⟩
      · simp only [pieceEngine, if_neg hle]
        refine ⟨htake, piece.drop size ++ others.flatten, ?_, ?_, rfl,
          (List.append_nil _).trans htaken⟩
        · rw [← List.append_assoc, List.take_append_drop]
          exact hplain
        · intro x hx
          rcases List.mem_cons.1 hx with rfl | hx
          · simp only [ne_eq, List.drop_eq_nil_iff]
            omega
          · exact hothers x hx
  send := by
    rintro pieces t data hdata ⟨hne, hplain, htaken⟩
    refine ⟨List.length_pos_iff.2 hdata, fun _ => rfl, hne, hplain, ?_⟩
    show t.emitted ++ data = t.taken ++ data.take data.length
    rw [htaken, List.take_length]
  read h := h.taken

def pieceStack (pieces : List Bytes) : Stack (List Bytes) where
  engine := pieceEngine
  start _ _ := pieces
  facts _ := ⟨.v13, none, none⟩

private theorem pieceStack_pass (pieces : List Bytes) :
    ((Gate.secured (.fixed {})).pass (pieceStack pieces) none {} { transport := {} }).result =
      .ok (.relayed { engine := pieces, transport := {} }) := by
  have hcall (s : Relay (List Bytes)) (hs : s.outgoing = []) :
      Relay.handshake pieceEngine s = (none, s) := by
    obtain ⟨engine, transport, outgoing, ended⟩ := s
    obtain rfl : outgoing = [] := hs
    rw [Relay.handshake, Relay.call]
    rfl
  have hwrap : (pieceStack pieces).wrap
      (.verifying { verify := .never, roots := .nothing }) {} {} =
        (none, .relayed { engine := pieces, transport := {} }) := by
    simp only [Stack.wrap, pieceStack, hcall, Prod.map, id]
  have hcontext : Policy.SecurityPolicy.context (.at {}) {} none =
      .ok (.verifying { verify := .never, roots := .nothing }) := rfl
  simp only [Gate.pass, PolicySource.policy, hcontext, hwrap]

private theorem pieceEngine_handsOut : Http.HandsOut (Channel.stream pieceEngine) fun pieces c =>
    (∀ piece ∈ pieces, piece.length ≤ Http.receiveSize) ∧
      c = .relayed { engine := pieces, transport := {} } := by
  constructor
  rintro piece others c - ⟨hsizes, rfl⟩
  have hle := hsizes piece List.mem_cons_self
  refine ⟨_, ?_, fun x hx => hsizes x (List.mem_cons_of_mem _ hx), rfl⟩
  show (Relay.receive pieceEngine Http.receiveSize _).map id Channel.relayed = _
  rw [Relay.receive, Relay.call]
  simp only [pieceEngine, if_pos hle, List.take_of_length_le hle]
  rfl

def longField (n : Nat) : Http.Field := ([120], List.replicate n 121)

private theorem longField_isTrailer (m n : Nat) : Http.IsTrailer
    ([longField m] ++ [longField n]) := by
  have hvalue (n : Nat) : Http.isFieldValue (longField n).2 = true := by
    have hbyte : ∀ x ∈ List.replicate n (121 : UInt8), x = 121 := fun x => List.eq_of_mem_replicate
    have htrim :
        Text.trim Http.isBlank (List.replicate n (121 : UInt8)) = List.replicate n 121 := by
      refine Text.trim_eq_self fun x hx => ?_
      rw [hbyte x hx]
      rfl
    simp only [Http.isFieldValue, longField, htrim, beq_self_eq_true, Bool.and_true,
      List.all_eq_true]
    intro x hx
    rw [hbyte x hx]
    rfl
  have hfield : ∀ f ∈ [longField m] ++ [longField n], f = longField m ∨ f = longField n := by
    simp
  refine ⟨?_, ?_, rfl⟩
  · intro f hf
    rcases hfield f hf with rfl | rfl <;> rfl
  · intro f hf
    rcases hfield f hf with rfl | rfl <;> exact hvalue _

private theorem trailerLines_longField (n : Nat) :
    (Http.trailerLines [longField n]).length = n + 5 := by
  simp [Http.trailerLines, Http.fieldText, longField]

def trailedStart : Bytes :=
  Bytes.ofString "POST /a HTTP/1.1\r\nHost: b\r\nTransfer-Encoding: chunked\r\n\r\n0\r\n"

def trailedHead : Http.Head where
  line := ⟨Bytes.ofString "POST", Bytes.ofString "/a", Bytes.ofString "1.1"⟩
  fields := [(Bytes.ofString "host", Bytes.ofString "b"),
    (Bytes.ofString "transfer-encoding", Bytes.ofString "chunked")]

private theorem readOn_trailedStart : Http.readOn 16 .head ⟨trailedStart, false⟩ =
    .waiting (.body trailedHead .trailers [] 0) ⟨[], false⟩ := by decide +kernel

def endedPieces : List Bytes :=
  [trailedStart, Http.trailerLines [longField 8190], Http.trailerLines [longField 8190] ++ [13, 10]]

def latePieces : List Bytes :=
  [trailedStart, Http.trailerLines [longField 8190], Http.trailerLines [longField 8190], [13, 10]]

/-- A trailer section that is too long to wait shows where the records of a client end, even if the
head, the chunk size line and each line of the section are short: no plain connection is served as
both of these clients are. -/
theorem not_serves_as_plain_trailers :
    let channel (pieces : List Bytes) : Channel (List Bytes) :=
      .relayed { engine := pieces, transport := {} }
    let requests (pieces : List Bytes) :=
      (Http.serve (Http.canned [.echo]) 16 (Channel.stream pieceEngine) 1000 .head {}
        (channel pieces) 0).requests
    (∀ whole, pieceEngine.Faithful HoldsPieces HoldsPieces whole id) ∧
    (∀ pieces, ((Gate.secured (.fixed {})).pass (pieceStack pieces) none {}
      { transport := {} }).result = .ok (channel pieces)) ∧
    endedPieces.flatten = latePieces.flatten ∧
    (∀ piece ∈ endedPieces ++ latePieces, piece ≠ [] ∧ piece.length ≤ Record.most) ∧
    ∀ (transport : Script) (cut : List Bytes),
      let run' := Http.serveCut (Http.canned [.echo]) 16 transport cut 0
      ¬ (requests endedPieces = run'.requests ∧ requests latePieces = run'.requests) := by
  intro channel requests
  have hline := trailerLines_longField 8190
  have hsizes : ∀ piece ∈ endedPieces ++ latePieces, piece ≠ [] ∧ piece.length ≤ Record.most := by
    have hmost : Record.most = 16384 := rfl
    have hstart : trailedStart ≠ [] ∧ trailedStart.length ≤ Record.most := by decide +kernel
    have hlines : Http.trailerLines [longField 8190] ≠ [] := Http.trailerLines_ne_nil (by simp)
    intro piece hpiece
    simp only [endedPieces, latePieces, List.cons_append, List.nil_append, List.mem_cons,
      List.not_mem_nil, or_false] at hpiece
    rcases hpiece with rfl | rfl | rfl | rfl | rfl | rfl | rfl
    · exact hstart
    · exact ⟨hlines, by omega⟩
    · exact ⟨by simp, by simp; omega⟩
    · exact hstart
    · exact ⟨hlines, by omega⟩
    · exact ⟨hlines, by omega⟩
    · exact ⟨by simp, by simp; omega⟩
  have hreceived {pieces : List Bytes} (h : ∀ piece ∈ pieces, piece ∈ endedPieces ++ latePieces) :
      ∀ piece ∈ pieces, piece.length ≤ Http.receiveSize :=
    fun piece hpiece => Nat.le_trans (hsizes piece (h piece hpiece)).2 (by decide)
  have hflat : endedPieces.flatten = latePieces.flatten := by
    simp [endedPieces, latePieces]
  have hstart : trailedStart ≠ [] := (hsizes trailedStart (by simp [endedPieces])).1
  have hfits : (Http.trailerLines [longField 8190]).length ≤ Http.maxIncomplete := by
    rw [hline]
    decide
  refine ⟨pieceEngine_faithful, pieceStack_pass, hflat, hsizes, ?_⟩
  rintro transport cut run' ⟨hended, hlate⟩
  have htrailer := longField_isTrailer 8190 8190
  have hlong : Http.maxIncomplete <
      (Http.trailerLines ([longField 8190] ++ [longField 8190])).length := by
    rw [Http.trailerLines_append, List.length_append, hline]
    decide
  obtain ⟨later, hcalled⟩ := Http.requests_of_ended pieceEngine_handsOut hstart readOn_trailedStart
    htrailer (by simp) hfits ⟨hreceived fun x hx => List.mem_append_left _ hx, rfl⟩
    (Http.canned [.echo]) 996 0
  have hnone := Http.requests_of_late pieceEngine_handsOut hstart readOn_trailedStart htrailer
    (by simp) hfits (by simp) hlong ⟨hreceived fun x hx => List.mem_append_right _ hx, rfl⟩
    (Http.canned [.echo]) 996 0
  have hsame : requests endedPieces = requests latePieces := hended.trans hlate.symm
  cases hcalled.symm.trans (hsame.trans hnone)

end Server

end TlsGate
