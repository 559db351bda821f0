import TlsGate.Proofs.Http.RoundTrip

/-!
Requests that ask for a head alone. A response is answered to HEAD with the status line and the
header block that the same response is answered to GET with, and with nothing after them; whether
the connection lives on is the same for both, whatever the fields of the response say.
-/

set_option autoImplicit false
set_option relaxedAutoImplicit false

namespace TlsGate.Http

open TlsGate.Text

variable {σ τ : Type}

def getMethod : Bytes := Bytes.ofString "GET"

namespace Head

/-- The head with another method. -/
def withMethod (h : Head) (method : Bytes) : Head :=
  { h with line := { h.line with method := method } }

theorem modern_of_keepsAlive {h : Head} (hkeep : h.keepsAlive = true) : h.isModern = true := by
  simp only [keepsAlive, Bool.and_eq_true] at hkeep
  exact hkeep.1

end Head

/-! ## Fields that do not depend on the method -/

namespace Response

variable {peer other : Peer} {r : Response} {stated : List Field}

private theorem mustClose_eq (hpeer : peer.keepsAlive = true → peer.modern = true) :
    r.mustClose peer stated = !peer.keepsAlive := by
  cases hkeep : peer.keepsAlive with
  | true =>
    have hmodern := hpeer hkeep
    simp [mustClose, hkeep, hmodern]
  | false => simp [mustClose, hkeep]

structure SameBut (peer other : Peer) (r : Response) : Prop where
  modern : peer.modern = other.modern
  keepsAlive : peer.keepsAlive = other.keepsAlive
  closesIfOld : peer.keepsAlive = true → peer.modern = true
  tunnel : peer.opensTunnel r = false
  otherTunnel : other.opensTunnel r = false

namespace SameBut

variable (h : SameBut peer other r)
include h

theorem sentFields_eq (stated : List Field) :
    r.sentFields peer stated = r.sentFields other stated := by
  have hbodiless : r.isBodiless peer = r.isBodiless other := by
    rw [isBodiless, isBodiless, h.tunnel, h.otherTunnel]
  have hcoded : r.isCoded peer stated = r.isCoded other stated := by
    rw [isCoded, isCoded, hbodiless]
  have hframed : r.framed peer stated = r.framed other stated := by
    rw [framed, framed, hcoded, h.modern]
  have hclosesIfOld : other.keepsAlive = true → other.modern = true := by
    intro hkeep
    rw [← h.modern]
    exact h.closesIfOld (h.keepsAlive.trans hkeep)
  rw [sentFields, sentFields, mustClose_eq h.closesIfOld, mustClose_eq hclosesIfOld, hframed,
    h.keepsAlive]

theorem letsLive_eq (stated : List Field) :
    r.letsLive peer stated = r.letsLive other stated := by
  rw [letsLive, letsLive, h.sentFields_eq, h.keepsAlive]

end SameBut

private theorem sentBody_of_wantsHead (hhead : peer.wantsHead = true) :
    r.sentBody peer stated = ([], none) := by
  rw [sentBody, bodyForm, hhead]
  rfl

private theorem transmit_of_wantsHead (h : r.checkedFields = .ok stated)
    (hhead : peer.wantsHead = true)
    (htunnel : peer.opensTunnel r = false) :
    transmit peer r =
      ⟨[writeHead r.status (r.sentFields peer stated)], none, r.letsLive peer stated⟩ := by
  rw [transmit_of_ok h, htunnel, if_neg Bool.false_ne_true, sentBody_of_wantsHead hhead]
  exact congrArg _ (Bool.and_true _)

/-! ## The end of the header block -/

private theorem fieldText_ne_nil (f : Field) : fieldText f ≠ [] := by
  simp [fieldText]

private theorem mem_of_mem_elements {name element : Bytes} {fs : List Field} {b : UInt8}
    (h : element ∈ elements name fs) (hb : b ∈ element) : ∃ f ∈ fs, b ∈ Bytes.toLower f.2 := by
  obtain ⟨f, hf, helement⟩ := List.mem_flatMap.1 h
  obtain ⟨word, hword, rfl⟩ := List.mem_map.1 (List.mem_filter.1 helement).1
  exact ⟨f, (List.mem_filter.1 hf).1, mem_of_mem_fields hword (mem_of_mem_trim hb)⟩

private theorem mem_closingElements {element : Bytes} {fs : List Field}
    (h : element ∈ closingElements fs) :
    element = closeOption ∨ element ∈ elements connectionName fs := by
  have hwords := List.mem_mergeSort.1 (List.mem_eraseDups.1 h)
  rcases List.mem_cons.1 hwords with rfl | hmem
  · exact .inl rfl
  · exact .inr (List.mem_filter.1 hmem).1

private theorem feed_not_mem_toLower {word : Bytes} (h : 10 ∉ word) : 10 ∉ Bytes.toLower word := by
  have hfeed : ∀ b, Bytes.lowerByte b = 10 → b = 10 := Bytes.forall_byte (by decide +kernel)
  intro hmem
  obtain ⟨b, hb, hlower⟩ := List.mem_map.1 hmem
  exact h (hfeed b hlower ▸ hb)

private theorem withClose_lines {fs : List Field} (h : ∀ f ∈ fs, 10 ∉ fieldText f) :
    ∀ f ∈ withClose fs, 10 ∉ fieldText f := by
  intro f hf
  rcases List.mem_append.1 hf with hf | hf
  · exact h f (List.mem_filter.1 hf).1
  · obtain ⟨element, helement, rfl⟩ := List.mem_map.1 hf
    have hname : 10 ∉ Bytes.ofString "Connection" := by decide
    have hvalue : 10 ∉ element := by
      rcases mem_closingElements helement with rfl | helement
      · decide
      · intro hfeed
        obtain ⟨g, hg, hmem⟩ := mem_of_mem_elements helement hfeed
        have hline := h g hg
        simp only [fieldText, List.mem_append, List.mem_cons, not_or] at hline
        exact feed_not_mem_toLower hline.2.2.2 hmem
    simp [fieldText, hname, hvalue]

private theorem sentFields_lines (h : r.checkedFields = .ok stated) (peer : Peer) :
    ∀ f ∈ r.sentFields peer stated, 10 ∉ fieldText f := by
  have hstated : ∀ f ∈ stated, 10 ∉ fieldText f := by
    intro f hf
    obtain ⟨hname, -, hvalue⟩ := (isChecked_of_ok h).wellFormed f hf
    exact (fieldText_line hname hvalue).1
  have hplain : ∀ f ∈ withoutField contentLength (withoutField transferEncoding stated),
      10 ∉ fieldText f := by
    intro f hf
    exact hstated f (List.mem_filter.1 (List.mem_filter.1 hf).1).1
  have hframed : ∀ f ∈ r.framed peer stated, 10 ∉ fieldText f := by
    intro f hf
    simp only [framed] at hf
    split at hf
    · exact hstated f hf
    · split at hf
      · rcases List.mem_append.1 hf with hf | hf
        · exact hplain f hf
        · obtain rfl := List.mem_singleton.1 hf
          decide
      · exact hplain f hf
  intro f hf
  simp only [sentFields] at hf
  split at hf
  · exact withClose_lines hframed f hf
  · exact hframed f hf

end Response

private theorem takeLines_writeHead {status : Int} (hstatus : 0 ≤ status) {fs : List Field}
    (h : ∀ f ∈ fs, 10 ∉ fieldText f) (rest : Bytes) :
    takeLines (writeHead status fs ++ rest) =
      some (Client.statusText status.toNat :: (hostFirst fs).map fieldText, rest) := by
  have hfirst : 10 ∉ Client.statusText status.toNat := by
    have hstart : 10 ∉ Bytes.ofString "HTTP/1.1 " := by decide
    have hdigits : 10 ∉ Bytes.digits 10 status.toNat := by
      intro hmem
      exact absurd (Bytes.isDigit_of_mem hmem) (by decide)
    simp [Client.statusText, hstart, hdigits]
  have hlines : ∀ line ∈ Client.statusText status.toNat :: (hostFirst fs).map fieldText,
      10 ∉ line ∧ line ≠ [] := by
    intro line hline
    rcases List.mem_cons.1 hline with rfl | hline
    · exact ⟨hfirst, by simp [Client.statusText]⟩
    · obtain ⟨f, hf, rfl⟩ := List.mem_map.1 hline
      exact ⟨h f (mem_hostFirst.1 hf), Response.fieldText_ne_nil f⟩
  have hwritten : writeHead status fs ++ rest =
      (Client.statusText status.toNat :: (hostFirst fs).map fieldText).flatMap (· ++ [13, 10]) ++
        13 :: 10 :: rest := by
    have hline : fieldLine = fun f => fieldText f ++ [13, 10] := by
      funext f
      simp [fieldLine, fieldText]
    rw [Client.writeHead_eq hstatus]
    simp [List.flatMap_map, hline]
  rw [hwritten]
  exact takeLines_flatMap hlines rest

/-! ## Exchanges -/

variable {app : Application τ} {limit : Int} {io : ByteStream σ}

theorem Obtains.serve_eq {p : Progress} {i : Inbox} {s t : σ} {found : Reading}
    (h : Obtains limit io p i s found t) (app : Application τ) (a : τ) :
    ∃ (q : Progress) (j : Inbox) (receives : Nat) (events : List Event),
      readOn limit q j = found ∧ events.filter Event.isOutward = [] ∧ ∀ steps,
        serve app limit io (steps + receives) p i s a =
          (serve app limit io steps q j t a).after events := by
  induction h with
  | reads p i s => exact ⟨p, i, 0, [], rfl, rfl, fun _ => rfl⟩
  | @receives p p' i i' s t u data found waits received _ ih =>
    obtain ⟨q, j, receives, events, hread, hsilent, hserve⟩ := ih
    refine ⟨q, j, receives + 1, .received data :: events, hread, hsilent, ?_⟩
    intro steps
    rw [← Nat.add_assoc, serve_of_waiting waits, received]
    simp only [hserve, Run.after_after, List.singleton_append]
  | @ends p p' i i' s t u found waits ended _ ih =>
    obtain ⟨q, j, receives, events, hread, hsilent, hserve⟩ := ih
    refine ⟨q, j, receives + 1, .receiveFailed .ended :: events, hread, hsilent, ?_⟩
    intro steps
    rw [← Nat.add_assoc, serve_of_waiting waits, ended]
    simp only [hserve, Run.after_after, List.singleton_append]

/-- Serving a connection comes to a request, which the application answers with a response, and goes
on by sending a reply; before that, nothing is sent or handed to the application. -/
def Exchanges (app : Application τ) (limit : Int) (io : ByteStream σ) (p : Progress) (i : Inbox)
    (s : σ) (a : τ) (request : Request) (r : Response) (reply : Transmission) : Prop :=
  ∃ (steps : Nat) (before : List Event) (j : Inbox) (t : σ) (b : τ),
    before.filter Event.isOutward = [] ∧ ∀ more,
      serve app limit io (more + steps) p i s a =
        (sendReply io reply t b fun u => serve app limit io more .head j u b).after
          (before ++ [.called request (.response r)])

private theorem exchanges_of_obtains {p : Progress} {i j : Inbox} {s t : σ} {a : τ} {head : Head}
    {body : Bytes} {r : Response} (h : Obtains limit io p i s (.request head body j) t)
    (hanswer : (app.answer (head.request body) a).1 = .response r) :
    Exchanges app limit io p i s a (head.request body) r (transmit head.peer r) := by
  obtain ⟨q, j', receives, events, hread, hsilent, hserve⟩ := h.serve_eq app a
  refine ⟨1 + receives, events, j, t, (app.answer (head.request body) a).2, hsilent, ?_⟩
  intro more
  rw [← Nat.add_assoc, hserve, serve_of_request hread, hanswer, Run.after_after]
  rfl

/-- HEAD equals GET without the body. Wherever two connections stand, if a request comes with GET on
the one and with HEAD on the other, and the application gives the same response to both, then what
is sent for HEAD is the status line and the header block that are sent for GET, up to their blank
line, and nothing after it. The HEAD exchange can always be completed, and it keeps the connection
alive exactly if the GET exchange does, when that is completed. -/
theorem head_equals_get (app : Application τ) (limit : Int) (io : ByteStream σ) {p q : Progress}
    {i i' j j' : Inbox} {s s' t t' : σ} {a b : τ} {head : Head} {body : Bytes} {r : Response}
    (hgot : Obtains limit io p i s (.request (head.withMethod getMethod) body i') s')
    (hhead : Obtains limit io q j t (.request (head.withMethod headMethod) body j') t')
    (hgetAnswer : (app.answer ((head.withMethod getMethod).request body) a).1 = .response r)
    (hheadAnswer : (app.answer ((head.withMethod headMethod).request body) b).1 = .response r)
    (haccepted : ∃ stated, r.checkedFields = .ok stated) :
    let get := transmit (head.withMethod getMethod).peer r
    let asked := transmit (head.withMethod headMethod).peer r
    Exchanges app limit io p i s a ((head.withMethod getMethod).request body) r get ∧
      Exchanges app limit io q j t b ((head.withMethod headMethod).request body) r asked ∧
      (∃ block lines, get.pieces.head? = some block ∧ asked.pieces = [block] ∧
        ∀ rest, takeLines (block ++ rest) = some (lines, rest)) ∧
      asked.fault = none ∧ (get.fault = none → asked.keepsAlive = get.keepsAlive) := by
  intro get asked
  obtain ⟨stated, hstated⟩ := haccepted
  have hsame : Response.SameBut (head.withMethod getMethod).peer
      (head.withMethod headMethod).peer r :=
    ⟨rfl, rfl, Head.modern_of_keepsAlive, rfl, rfl⟩
  have hget : get = _ := Response.transmit_of_ok hstated
  have hasked : asked = _ := Response.transmit_of_wantsHead hstated rfl hsame.otherTunnel
  rw [hsame.tunnel, if_neg Bool.false_ne_true] at hget
  rw [← hsame.sentFields_eq, ← hsame.letsLive_eq] at hasked
  have hstatus := (Response.isChecked_of_ok hstated).status
  have hend := takeLines_writeHead (show 0 ≤ r.status by omega)
    (Response.sentFields_lines hstated (head.withMethod getMethod).peer)
  refine ⟨exchanges_of_obtains hgot hgetAnswer, exchanges_of_obtains hhead hheadAnswer,
    ⟨_, _, ?_, ?_, hend⟩, ?_, ?_⟩
  · rw [hget, List.head?_cons]
  · rw [hasked]
  · rw [hasked]
  · intro hfault
    rw [hget] at hfault
    rw [hasked, hget]
    simp only at hfault
    rw [hfault]
    exact (Bool.and_true _).symm

def codedResponse : Response where
  status := 203
  fields := [(Bytes.ofString "Transfer-Encoding", Bytes.ofString "Chunked"),
    (Bytes.ofString "Content-Length", Bytes.ofString "7"),
    (Bytes.ofString "Connection", Bytes.ofString "keep-alive, X")]
  body := Bytes.ofString "abc"

/-- One request stands in the buffer, the other has still to be received in part. -/
theorem head_equals_get_coded :
    let head : Head := ⟨⟨[], Bytes.ofString "/a", [49, 46, 48]⟩, []⟩
    let whole : Inbox := ⟨Bytes.ofString "GET /a HTTP/1.0\r\n\r\nrest", true⟩
    let part : Inbox := ⟨Bytes.ofString "HEAD /a HT", false⟩
    let cut : Script := { items := [.data (Bytes.ofString "TP/1.0\r\n\r\n")] }
    Obtains 8 Script.stream .head whole cut
        (.request (head.withMethod getMethod) [] ⟨Bytes.ofString "rest", true⟩) cut ∧
      Obtains 8 Script.stream .head part cut
        (.request (head.withMethod headMethod) [] {}) (Script.receive receiveSize cut).2 ∧
      (∃ stated, codedResponse.checkedFields = .ok stated) ∧
      ∃ block, (transmit (head.withMethod headMethod).peer codedResponse).pieces = [block] := by
  intro head whole part cut
  have hget : Obtains 8 Script.stream .head whole cut
      (.request (head.withMethod getMethod) [] ⟨Bytes.ofString "rest", true⟩) cut := by
    have hread : readOn 8 .head whole =
        .request (head.withMethod getMethod) [] ⟨Bytes.ofString "rest", true⟩ := by
      decide +kernel
    exact hread ▸ .reads .head whole cut
  have hhead : Obtains 8 Script.stream .head part cut
      (.request (head.withMethod headMethod) [] {}) (Script.receive receiveSize cut).2 := by
    have hwait : readOn 8 .head part = .waiting .head part := by decide +kernel
    have hreceive : Script.stream.receive receiveSize cut =
        (.ok (Bytes.ofString "TP/1.0\r\n\r\n"), (Script.receive receiveSize cut).2) := by
      decide +kernel
    have hread : readOn 8 .head ⟨part.buffer ++ Bytes.ofString "TP/1.0\r\n\r\n", false⟩ =
        .request (head.withMethod headMethod) [] {} := by
      decide +kernel
    exact .receives hwait hreceive (hread ▸ .reads .head _ _)
  have haccepted : ∃ stated, codedResponse.checkedFields = .ok stated :=
    isOk_iff.1 (by decide +kernel)
  obtain ⟨-, -, ⟨block, -, -, hpieces, -⟩, -⟩ :=
    head_equals_get (canned [.respond codedResponse]) 8 Script.stream hget hhead rfl rfl haccepted
      (a := 0) (b := 0)
  exact ⟨hget, hhead, haccepted, block, hpieces⟩

end TlsGate.Http
