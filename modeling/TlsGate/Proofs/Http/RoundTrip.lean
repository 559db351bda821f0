import Mathlib.Data.List.Forall2
import TlsGate.Http.Canned
import TlsGate.Proofs.Http.Client
import TlsGate.Proofs.Http.Conversation

/-!
Reading responses back. A client that knows nothing but the methods of its requests finds, in the
bytes that a server sends on a connection, one response for each call of the application, with the
status, the fields and the body that the application gave; whatever a body holds, it is not taken
for a part of another response.
-/

set_option autoImplicit false
set_option relaxedAutoImplicit false

namespace TlsGate.Http

open TlsGate.Text

variable {τ : Type}

/-! ## Fields in the order they are sent -/

def hostFirst (fs : List Field) : List Field :=
  fs.filter (·.1 == hostName) ++ fs.filter (·.1 != hostName)

theorem mem_hostFirst {fs : List Field} {f : Field} : f ∈ hostFirst fs ↔ f ∈ fs := by
  simp only [hostFirst, List.mem_append, List.mem_filter]
  by_cases hname : f.1 = hostName <;> simp [hname]

private theorem filter_hostFirst (p : Field → Bool) (fs : List Field) :
    (hostFirst fs).filter p = hostFirst (fs.filter p) := by
  simp only [hostFirst, List.filter_append, List.filter_filter]
  congr 1 <;> exact List.filter_congr fun f _ => Bool.and_comm ..

private theorem hostFirst_of_none {fs : List Field} (h : ∀ f ∈ fs, f.1 ≠ hostName) :
    hostFirst fs = fs := by
  have hnone : fs.filter (·.1 == hostName) = [] :=
    List.filter_eq_nil_iff.2 fun f hf hname => h f hf (beq_iff_eq.1 hname)
  have hall : fs.filter (·.1 != hostName) = fs :=
    List.filter_eq_self.2 fun f hf => by simpa using h f hf
  rw [hostFirst, hnone, hall, List.nil_append]

private theorem named_hostFirst {name : Bytes} (hne : hostName ≠ name) (fs : List Field) :
    named name (hostFirst fs) = named name fs := by
  rw [named, filter_hostFirst]
  refine hostFirst_of_none fun f hf hname => hne ?_
  have hlower : Bytes.toLower hostName = hostName := by decide
  rw [← beq_iff_eq.1 (List.mem_filter.1 hf).2, hname, hlower]

private theorem elements_hostFirst {name : Bytes} (hne : hostName ≠ name) (fs : List Field) :
    elements name ((hostFirst fs).map lowerName) = elements name (fs.map lowerName) := by
  rw [elements_lowerName, named_hostFirst hne, ← elements_lowerName]

/-! ## Reading what is written -/

namespace Client

private theorem line?_append {text : Bytes} (h : 13 ∉ text) (rest : Bytes) :
    line? (text ++ 13 :: 10 :: rest) = some (text, rest) := by
  induction text with
  | nil => rfl
  | cons b text ih =>
    simp only [List.mem_cons, not_or] at h
    rw [List.cons_append, line?, ih h.2]
    · rfl
    · intro _ hb
      exact absurd hb.symm h.1

private theorem fields?_of_nil {input rest : Bytes} (h : line? input = some ([], rest)) :
    fields? input = some ([], rest) := by
  rw [fields?]
  split <;> simp_all

private theorem fields?_of_ne_nil {input text rest : Bytes} (h : line? input = some (text, rest))
    (htext : text ≠ []) :
    fields? input = (field? text).bind fun f =>
      (fields? rest).bind fun found => some (f :: found.1, found.2) := by
  rw [fields?]
  split <;> simp_all

private theorem field?_fieldText {f : Field} (hname : isToken f.1 = true)
    (hvalue : isFieldValue f.2 = true) : field? (fieldText f) = some f := by
  have hcut : cutFirst 58 (fieldText f) = (f.1, some (32 :: f.2)) :=
    cutFirst_append (not_mem_of_isToken hname (by decide)) (32 :: f.2)
  have htrim : trim isBlank (32 :: f.2) = f.2 := by
    simp only [isFieldValue, Bool.and_eq_true, beq_iff_eq] at hvalue
    rw [trim_cons (by decide), hvalue.2]
  simp only [field?, hcut, htrim, hname, if_true]

private theorem fields?_flatMap {fs : List Field}
    (h : ∀ f ∈ fs, isToken f.1 = true ∧ isFieldValue f.2 = true) (rest : Bytes) :
    fields? (fs.flatMap fieldLine ++ 13 :: 10 :: rest) = some (fs, rest) := by
  induction fs with
  | nil => exact fields?_of_nil rfl
  | cons f fs ih =>
    obtain ⟨hname, hvalue⟩ := h f List.mem_cons_self
    have hreturn : 13 ∉ fieldText f := by
      have hn := not_mem_of_isToken hname (by decide : isTokenByte 13 = false)
      have hv := not_mem_of_isFieldValue hvalue (by decide : (isFieldByte 13 || isBlank 13) = false)
      simp [fieldText, hn, hv]
    have hnonempty : fieldText f ≠ [] := by simp [fieldText]
    have hline : line? ((f :: fs).flatMap fieldLine ++ 13 :: 10 :: rest) =
        some (fieldText f, fs.flatMap fieldLine ++ 13 :: 10 :: rest) := by
      rw [← line?_append hreturn]
      simp [fieldLine, fieldText]
    rw [fields?_of_ne_nil hline hnonempty, field?_fieldText hname hvalue,
      ih fun g hg => h g (List.mem_cons_of_mem _ hg)]
    rfl

def statusText (n : Nat) : Bytes := Bytes.ofString "HTTP/1.1 " ++ Bytes.digits 10 n ++ [32]

theorem writeHead_eq {status : Int} (hstatus : 0 ≤ status) (fs : List Field) :
    writeHead status fs =
      statusText status.toNat ++ 13 :: 10 :: ((hostFirst fs).flatMap fieldLine ++ [13, 10]) := by
  obtain ⟨n, rfl⟩ := Int.eq_ofNat_of_zero_le hstatus
  have hline : Bytes.ofString ("HTTP/1.1 " ++ toString (n : Int) ++ " \r\n") =
      statusText n ++ [13, 10] := by
    have hnumber : Bytes.ofString (toString (n : Int)) = Bytes.digits 10 n := rfl
    have hend : Bytes.ofString " \r\n" = [32, 13, 10] := by decide
    rw [Bytes.ofString_append, Bytes.ofString_append, hnumber, hend, statusText]
    simp
  rw [writeHead, hline, Int.toNat_natCast]
  simp [hostFirst]

private theorem digits_of_three {n : Nat} (hlow : 100 ≤ n) (hhigh : n < 1000) :
    ∃ x y z, Bytes.digits 10 n = [x, y, z] := by
  have hone (m : Nat) : Bytes.digits 10 m =
      if m < 10 then [Bytes.digit m] else Bytes.digits 10 (m / 10) ++ [Bytes.digit (m % 10)] :=
    Bytes.digits_eq (by decide) (by decide)
  rw [hone, if_neg (by omega), hone, if_neg (by omega), hone, if_pos (by omega)]
  exact ⟨_, _, _, rfl⟩

private theorem status?_statusText {n : Nat} (hlow : 100 ≤ n) (hhigh : n < 1000) :
    status? (statusText n) = some n := by
  obtain ⟨x, y, z, heq⟩ := digits_of_three hlow hhigh
  have hdigit (b : UInt8) (hb : b ∈ [x, y, z]) : Bytes.isDigit b = true :=
    Bytes.isDigit_of_mem (heq ▸ hb)
  have hall : [49, x, y, z].all Bytes.isDigit = true := by
    simp only [List.all_cons, List.all_nil, Bool.and_true, Bool.and_eq_true]
    exact ⟨by decide, hdigit x (by simp), hdigit y (by simp), hdigit z (by simp)⟩
  have hstart : Bytes.ofString "HTTP/1.1 " = [72, 84, 84, 80, 47, 49, 46, 49, 32] := by decide
  rw [statusText, heq, hstart]
  show (if [49, x, y, z].all Bytes.isDigit then some (Bytes.decimalValue [x, y, z]) else none) = _
  rw [if_pos hall, ← heq, Bytes.decimalValue_digits]

private theorem not_mem_statusText {n : Nat} : 13 ∉ statusText n := by
  have hdigits : 13 ∉ Bytes.digits 10 n := by
    intro hmem
    exact absurd (Bytes.isDigit_of_mem hmem) (by decide)
  have hstart : 13 ∉ Bytes.ofString "HTTP/1.1 " := by decide
  simp [statusText, hstart, hdigits]

end Client

namespace Response.IsDelimited

variable {r : Response} {stated : List Field} {peer : Peer} {method : Bytes}
  (h : r.IsDelimited) (hstated : r.checkedFields = .ok stated)
include h hstated

private theorem wellFormed_sentFields : ∀ f ∈ hostFirst (r.sentFields peer stated),
    isToken f.1 = true ∧ isFieldValue f.2 = true := by
  intro f hf
  rw [mem_hostFirst, h.sentFields_eq hstated, List.mem_append] at hf
  rcases hf with hf | hf
  · obtain ⟨hname, -, hvalue⟩ := (isChecked_of_ok hstated).wellFormed f hf
    exact ⟨hname, hvalue⟩
  · split at hf
    · simp at hf
    · obtain rfl := List.mem_singleton.1 hf
      decide

private theorem delimiter?_sentFields (hmethod : method ≠ connectMethod) :
    Client.delimiter? method r.status.toNat (hostFirst (r.sentFields peer stated)) =
      some (if method == headMethod then .nothing else .counted r.body.length) := by
  obtain ⟨word, hword, hvalue, hlength⟩ := h.elements_length hstated
  have hcoding : elements transferEncoding
      ((hostFirst (r.sentFields peer stated)).map lowerName) = [] := by
    rw [elements_hostFirst (by decide), h.elements_sentFields hstated (by decide),
      h.elements_coding hstated]
  have hcounted : elements contentLength
      ((hostFirst (r.sentFields peer stated)).map lowerName) = [word] := by
    rw [elements_hostFirst (by decide), h.elements_sentFields hstated (by decide), hlength]
  have hdigits : word.all Bytes.isDigit = true := List.all_eq_true.2 hword.digits
  have hstatus := (isChecked_of_ok hstated).status
  have hbodied := h.bodied
  have hinformed : ¬ r.status.toNat / 100 = 1 := by omega
  have hempty : ¬ r.status.toNat = 204 := by omega
  have hsame : ¬ r.status.toNat = 304 := by omega
  have hlowered (name : Bytes) :
      elements name ((hostFirst (r.sentFields peer stated)).map fun f => (Bytes.toLower f.1, f.2)) =
        elements name ((hostFirst (r.sentFields peer stated)).map lowerName) := rfl
  simp only [Client.delimiter?, hlowered, hcoding, hcounted]
  cases hhead : method == headMethod <;>
    simp [hinformed, hempty, hsame, hmethod, hdigits, hvalue]

private theorem response?_eq (peer : Peer) (hmethod : method ≠ connectMethod) (rest : Bytes) :
    Client.response? method (writeHead r.status (r.sentFields peer stated) ++
        ((if method == headMethod then [] else r.body) ++ rest)) =
      some (⟨r.status.toNat, hostFirst (r.sentFields peer stated),
        if method == headMethod then [] else r.body⟩, rest) := by
  have hstatus := (isChecked_of_ok hstated).status
  have hsent : ∀ f ∈ hostFirst (r.sentFields peer stated),
      isToken f.1 = true ∧ isFieldValue f.2 = true := h.wellFormed_sentFields hstated
  have hhead := Client.fields?_flatMap hsent ((if method == headMethod then [] else r.body) ++ rest)
  rw [Client.writeHead_eq (by omega)]
  simp only [List.append_assoc, List.cons_append, List.nil_append] at hhead ⊢
  rw [Client.response?, Client.line?_append Client.not_mem_statusText]
  simp only [Option.bind_eq_bind, Option.bind_some]
  rw [Client.status?_statusText (by omega) (by omega), Option.bind_some, hhead, Option.bind_some,
    h.delimiter?_sentFields hstated hmethod]
  cases method == headMethod <;> simp [Client.body?]

end Response.IsDelimited

/-! ## What a client is told -/

def otherFields (fs : List Field) : List Field :=
  fs.filter fun f => Bytes.toLower f.1 != contentLength && Bytes.toLower f.1 != connectionName

/-- A reading tells a client what a response says: the status, the fields with their names in lower
case and a Host field first, one length, which is that of the body, the end of the connection where
the client has not asked to keep it, and the body, unless only the head was asked for. -/
structure Received.Tells (got : Received) (peer : Peer) (r : Response) : Prop where
  status : (got.status : Int) = r.status
  fields : otherFields got.fields = hostFirst (otherFields (r.fields.map lowerName))
  length : ∃ word : Bytes, word.IsLength ∧ Bytes.decimalValue word = r.body.length ∧
    named contentLength got.fields = [(contentLength, word)]
  connection : named connectionName got.fields = if peer.keepsAlive then [] else [closingField]
  body : got.body = if peer.wantsHead then [] else r.body

private theorem otherFields_eq {fs : List Field} (hlower : ∀ f ∈ fs, Bytes.toLower f.1 = f.1)
    (hcoding : ∀ f ∈ fs, f.1 ≠ transferEncoding) :
    otherFields fs = (fs.filter (!isFramingName ·.1)).filter (·.1 != connectionName) := by
  rw [otherFields, List.filter_filter]
  refine List.filter_congr fun f hf => ?_
  have hne : (f.1 == transferEncoding) = false := by simpa using hcoding f hf
  rw [hlower f hf, isFramingName, hne, Bool.or_false, Bool.and_comm]
  rfl

private theorem otherFields_append (fs gs : List Field) :
    otherFields (fs ++ gs) = otherFields fs ++ otherFields gs := List.filter_append ..

namespace Response.IsDelimited

variable {r : Response} {stated : List Field} {peer : Peer}
  (h : r.IsDelimited) (hstated : r.checkedFields = .ok stated)
include h hstated

private theorem otherFields_stated : otherFields stated = otherFields (r.fields.map lowerName) := by
  have hchecked := isChecked_of_ok hstated
  have hlower : ∀ f ∈ r.fields.map lowerName, Bytes.toLower f.1 = f.1 := by
    intro f hf
    obtain ⟨g, -, rfl⟩ := List.mem_map.1 hf
    exact toLower_idem g.1
  have hcoding : ∀ f ∈ r.fields.map lowerName, f.1 ≠ transferEncoding := by
    intro f hf hname
    obtain ⟨g, hg, rfl⟩ := List.mem_map.1 hf
    exact List.filter_eq_nil_iff.1 h.uncoded g hg (beq_iff_eq.2 hname)
  rw [otherFields_eq (fun f hf => (hchecked.wellFormed f hf).2.1) (h.ne_coding hstated),
    otherFields_eq hlower hcoding, filter_not_framing hchecked.framing,
    filter_not_framing_statedFields]

theorem tells : Received.Tells ⟨r.status.toNat, hostFirst (r.sentFields peer stated),
    if peer.wantsHead then [] else r.body⟩ peer r := by
  have hchecked := isChecked_of_ok hstated
  have hstatus := hchecked.status
  constructor
  · exact Int.toNat_of_nonneg (by omega)
  · have hclosing : otherFields (if peer.keepsAlive then [] else [closingField]) = [] := by
      cases peer.keepsAlive <;> decide
    rw [otherFields, filter_hostFirst]
    change hostFirst (otherFields (r.sentFields peer stated)) = _
    rw [h.sentFields_eq hstated, otherFields_append, hclosing, List.append_nil,
      h.otherFields_stated hstated]
  · obtain ⟨word, hword, hvalue, hlength⟩ := h.filter_length hstated
    refine ⟨word, hword, hvalue, ?_⟩
    have hclosing : named contentLength (if peer.keepsAlive then [] else [closingField]) = [] := by
      cases peer.keepsAlive <;> decide
    have hnamed : named contentLength stated = [(contentLength, word)] := by
      rw [← hlength]
      refine List.filter_congr fun f hf => ?_
      rw [(hchecked.wellFormed f hf).2.1]
    rw [named_hostFirst (by decide), h.sentFields_eq hstated, named_append, hnamed, hclosing]
    rfl
  · have hclosing : named connectionName (if peer.keepsAlive then [] else [closingField]) =
        if peer.keepsAlive then [] else [closingField] := by
      cases peer.keepsAlive <;> decide
    rw [named_hostFirst (by decide), h.sentFields_eq hstated, named_append,
      h.untied_stated hstated, hclosing]
    rfl
  · rfl

end Response.IsDelimited

/-! ## Calls -/

theorem Answer.IsDelimited.reply {answer : Answer} (h : answer.IsDelimited) :
    ∃ r, answer.reply? = some r ∧ r.IsDelimited := by
  cases answer with
  | response r => exact ⟨r, rfl, h⟩
  | nothing => exact h.elim
  | raised name =>
    have hexits : (Failure.raised name).exits = false := h
    have hplain : failureResponse.IsPlain := isPlain_of_status (by decide) (by decide)
    refine ⟨failureResponse, ?_, hplain.isDelimited⟩
    rw [Answer.reply?, if_neg (by simp [hexits])]

namespace Call

/-- The method that the client knows it has asked with. -/
def method (c : Call) : Bytes := c.head.line.method

def bytes (c : Call) : Bytes := c.pieces.flatten

/-- A reading tells the client what the answer to a call says. -/
def IsToldBy (c : Call) (got : Received) : Prop :=
  ∃ r, c.answer.reply? = some r ∧ got.Tells c.head.peer r

private theorem response?_bytes {c : Call} (hanswer : c.answer.IsDelimited)
    (hmethod : c.method ≠ connectMethod) (rest : Bytes) :
    ∃ got, Client.response? c.method (c.bytes ++ rest) = some (got, rest) ∧ c.IsToldBy got := by
  obtain ⟨r, hreply, hr⟩ : ∃ r, c.answer.reply? = some r ∧ r.IsDelimited :=
    Answer.IsDelimited.reply hanswer
  obtain ⟨stated, hstated⟩ := hr.accepted
  have htunnel : c.head.peer.opensTunnel r = false := by
    have hne : c.head.line.method ≠ connectMethod := hmethod
    simp [Peer.opensTunnel, Head.peer, hne]
  have hhead : c.head.peer.wantsHead = (c.method == headMethod) := rfl
  have hbytes : c.bytes = writeHead r.status (r.sentFields c.head.peer stated) ++
      if c.head.peer.wantsHead then [] else r.body := by
    rw [bytes, pieces, hreply, Option.elim_some, hr.transmit_eq hstated htunnel]
    cases c.head.peer.wantsHead <;> cases r.body <;> simp
  refine ⟨_, ?_, r, hreply, hr.tells hstated⟩
  rw [hbytes, List.append_assoc, hhead]
  exact hr.response?_eq hstated c.head.peer hmethod rest

end Call

private theorem Client.responses?_bytes {calls : List Call}
    (hanswers : ∀ c ∈ calls, c.answer.IsDelimited)
    (hmethods : ∀ c ∈ calls, c.method ≠ connectMethod) (rest : Bytes) :
    ∃ received, Client.responses? (calls.map Call.method) (calls.flatMap Call.bytes ++ rest) =
      some (received, rest) ∧ List.Forall₂ Call.IsToldBy calls received := by
  induction calls with
  | nil => exact ⟨[], rfl, .nil⟩
  | cons c calls ih =>
    obtain ⟨later, hlater, htold⟩ := ih (fun c' hc' => hanswers c' (List.mem_cons_of_mem _ hc'))
      fun c' hc' => hmethods c' (List.mem_cons_of_mem _ hc')
    obtain ⟨got, hgot, hcall⟩ := Call.response?_bytes (hanswers c List.mem_cons_self)
      (hmethods c List.mem_cons_self) (calls.flatMap Call.bytes ++ rest)
    refine ⟨got :: later, ?_, .cons hcall htold⟩
    rw [List.map_cons, List.flatMap_cons, List.append_assoc, Client.responses?]
    simp [hgot, hlater]

/-! ## Runs -/

def Ending.bytes (ending : Ending) : Bytes := ending.pieces.flatten

private theorem response?_refusalHead (peer : Peer) (fault : Fault) {method : Bytes}
    (hmethod : method ≠ connectMethod) :
    ∃ got, Client.response? method (refusalHead peer fault) = some (got, []) ∧
      (got.status : Int) = fault.status ∧ got.body = [] := by
  have hplain := isPlain_refusal fault
  let r : Response := { status := fault.status }
  refine ⟨⟨r.status.toNat, hostFirst (r.sentFields peer r.statedFields), []⟩, ?_, ?_, rfl⟩
  · have hread := hplain.isDelimited.response?_eq hplain.checkedFields_eq peer hmethod []
    simp only [ite_self, List.append_nil] at hread
    exact hread
  · have hstatus : 200 ≤ r.status := hplain.status.1
    exact Int.toNat_of_nonneg (by omega)

variable {σ : Type}

theorem Run.Tells.requests_eq {run : Run σ τ} {calls : List Call} {ending : Ending}
    (h : run.Tells calls ending) :
    run.requests = calls.map fun c => c.head.request c.body := by
  have hsent (pieces : List Bytes) :
      (pieces.map Event.sent).filterMap Event.request? = [] := by
    rw [List.filterMap_map]
    exact List.filterMap_eq_nil_iff.2 fun _ _ => rfl
  have hcalls (calls : List Call) : (calls.flatMap Call.events).filterMap Event.request? =
      calls.map fun c => c.head.request c.body := by
    induction calls with
    | nil => rfl
    | cons c calls ih =>
      rw [List.flatMap_cons, List.filterMap_append, ih, Call.events, List.filterMap_cons, hsent]
      rfl
  rw [Run.requests_eq, h.conversation, List.filterMap_append, hcalls, hsent, List.append_nil]

private theorem Run.Tells.called_mem {run : Run σ τ} {calls : List Call} {ending : Ending}
    (h : run.Tells calls ending) {c : Call} (hc : c ∈ calls) :
    .called (c.head.request c.body) c.answer ∈ run.events := by
  have hmem : .called (c.head.request c.body) c.answer ∈ run.conversation := by
    rw [h.conversation]
    exact List.mem_append_left _ (List.mem_flatMap.2 ⟨c, hc, List.mem_cons_self⟩)
  exact List.mem_of_mem_filter hmem

/-- Responses are read back as they were given. On a transport that does not fail, and if the
answers of the application are delimited, a client that knows the methods of the requests reads the
bytes that are sent as one response for each call, in the order of the calls, and what it reads
tells what the application has answered. The bytes for a call are read as its response whatever
follows them, and what is left at the end is nothing, or one error response without a body to a
request that was not handed over. -/
theorem responses_read_back (app : Application τ) (limit : Int) {transport : Script}
    (hfaultless : transport.NeverFails) {steps : Nat}
    (hsteps : stepsLeft .head {} transport < steps) (application : τ)
    (hanswers : ∀ event ∈
      (serve app limit Script.stream steps .head {} transport application).events,
      event.IsDelimited)
    (hmethods : ∀ request ∈
      (serve app limit Script.stream steps .head {} transport application).requests,
      request.method ≠ "CONNECT") :
    let run := serve app limit Script.stream steps .head {} transport application
    ∃ (calls : List Call) (ending : Ending) (received : List Received),
      Converses app limit Script.stream .head {} transport application calls ending ∧
      (run.requests = calls.map fun c => c.head.request c.body) ∧
      run.output = calls.flatMap Call.bytes ++ ending.bytes ∧
      Client.responses? (calls.map Call.method) run.output = some (received, ending.bytes) ∧
      List.Forall₂ Call.IsToldBy calls received ∧
      (∀ c ∈ calls, ∀ rest, ∃ got,
        Client.response? c.method (c.bytes ++ rest) = some (got, rest) ∧ c.IsToldBy got) ∧
      (ending.bytes = [] ∨ ∃ fault peer, ending = .refused fault peer ∧
        ∀ method, method ≠ connectMethod → ∃ got,
          Client.response? method ending.bytes = some (got, []) ∧
            (got.status : Int) = fault.status ∧ got.body = []) := by
  intro run
  have hended : run.outcome ≠ none := serve_ends hsteps
  obtain ⟨calls, ending, hconverses, htells⟩ := serve_tells hfaultless isParsed_head hended
    (Run.isSendable_of_delimited hanswers hmethods)
  have hrequests := htells.requests_eq
  have houtput : run.output = calls.flatMap Call.bytes ++ ending.bytes := by
    have hbytes : (calls.flatMap Call.pieces).flatten = calls.flatMap Call.bytes := by
      rw [← List.flatMap_id, List.flatMap_assoc]
      exact List.flatMap_congr fun c _ => List.flatMap_id
    rw [htells.output_eq, List.flatten_append, hbytes, Ending.bytes]
  have hcalls : ∀ c ∈ calls, c.answer.IsDelimited ∧ c.method ≠ connectMethod := by
    intro c hc
    have hmem : c.head.request c.body ∈ run.requests := by
      rw [hrequests]
      exact List.mem_map_of_mem hc
    exact ⟨hanswers _ (htells.called_mem hc), Head.method_ne_connect (hmethods _ hmem)⟩
  obtain ⟨received, hreceived, htold⟩ := Client.responses?_bytes (fun c hc => (hcalls c hc).1)
    (fun c hc => (hcalls c hc).2) ending.bytes
  refine ⟨calls, ending, received, hconverses, hrequests, houtput, houtput ▸ hreceived, htold,
    ?_, ?_⟩
  · intro c hc rest
    exact Call.response?_bytes (hcalls c hc).1 (hcalls c hc).2 rest
  · cases ending with
    | closed => exact .inl rfl
    | exchanged => exact .inl rfl
    | refused fault peer =>
      refine .inr ⟨fault, peer, rfl, fun method hmethod => ?_⟩
      have hone : (Ending.refused fault peer).bytes = refusalHead peer fault := by
        simp [Ending.bytes, Ending.pieces]
      rw [hone]
      exact response?_refusalHead peer fault hmethod

def lookalike : Script where
  items :=
    [.data (Bytes.ofString "POST /a HTTP/1.1\r\nHost: b\r\nContent-Length: 17\r\n\r\n"),
      .data (Bytes.ofString "HTTP/1.1 404 \r\n\r\nHEAD /c HTTP/1.1\r\nHost: b\r\n\r\n"),
      .data (Bytes.ofString "GET /d HTTP/1.1\r\nHost: b\r\nConnection: close\r\n\r\n"),
      .fault .ended]

def stating : Application Nat :=
  canned [.echo,
    .respond { status := 299, body := Bytes.ofString "abc", fields :=
      [(Bytes.ofString "X-A", Bytes.ofString "1"),
        (Bytes.ofString "Content-LENGTH", Bytes.ofString "3, 3"),
        (Bytes.ofString "HOST", Bytes.ofString "b")] },
    .raised "ValueError"]

theorem responses_read_back_lookalike :
    let run := serve stating 64 Script.stream 512 .head {} lookalike 0
    lookalike.NeverFails ∧ stepsLeft .head {} lookalike < 512 ∧
      (∀ event ∈ run.events, event.IsDelimited) ∧
      (∀ request ∈ run.requests, request.method ≠ "CONNECT") ∧
      (∃ (calls : List Call) (ending : Ending) (received : List Received),
        Client.responses? (calls.map Call.method) run.output = some (received, ending.bytes) ∧
          List.Forall₂ Call.IsToldBy calls received) ∧
      (Client.responses? [Bytes.ofString "POST", headMethod, Bytes.ofString "GET"] run.output).map
        (fun found => (found.1.map fun got => (got.status, got.body), found.2)) =
        some ([(201, Bytes.ofString "HTTP/1.1 404 \r\n\r\n"), (299, []), (500, [])], []) := by
  intro run
  have hfaultless : lookalike.NeverFails := ⟨rfl, by simp [lookalike]⟩
  have hsteps : stepsLeft .head {} lookalike < 512 := by decide +kernel
  have hanswers : ∀ event ∈ run.events, event.IsDelimited := by decide +kernel
  have hmethods : ∀ request ∈ run.requests, request.method ≠ "CONNECT" := by decide +kernel
  obtain ⟨calls, ending, received, -, -, -, hread, htold, -⟩ :=
    responses_read_back stating 64 hfaultless hsteps 0 hanswers hmethods
  exact ⟨hfaultless, hsteps, hanswers, hmethods, ⟨calls, ending, received, hread, htold⟩,
    by decide +kernel⟩

end TlsGate.Http
