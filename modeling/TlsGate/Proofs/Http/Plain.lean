import TlsGate.Proofs.Http.Delimited
import TlsGate.Proofs.Http.Written

/-!
Plain responses. A response whose status allows a body and whose fields are well formed and leave
the framing to the server can be sent to every client as a whole: its head states the length of the
body, and the body follows unless only the head was asked for. The responses that a server gives in
its own name are of this kind.
-/

set_option autoImplicit false
set_option relaxedAutoImplicit false

namespace TlsGate.Http

/-- A response that leaves the framing to the server; its length has at most twenty digits. -/
structure Response.IsPlain (r : Response) : Prop where
  status : 200 ≤ r.status ∧ r.status < 1000
  bodied : r.status ≠ 204 ∧ r.status ≠ 304
  names : ∀ f ∈ r.fields, isToken f.1 = true
  values : ∀ f ∈ r.fields, isFieldValue f.2 = true
  unframed : ∀ f ∈ r.fields, Bytes.toLower f.1 ≠ contentLength ∧
    Bytes.toLower f.1 ≠ transferEncoding ∧ Bytes.toLower f.1 ≠ connectionName
  size : (Bytes.digits 10 r.body.length).length ≤ 20

instance (r : Response) : Decidable r.IsPlain :=
  decidable_of_iff
    ((200 ≤ r.status ∧ r.status < 1000) ∧ (r.status ≠ 204 ∧ r.status ≠ 304) ∧
      (∀ f ∈ r.fields, isToken f.1 = true) ∧ (∀ f ∈ r.fields, isFieldValue f.2 = true) ∧
      (∀ f ∈ r.fields, Bytes.toLower f.1 ≠ contentLength ∧
        Bytes.toLower f.1 ≠ transferEncoding ∧ Bytes.toLower f.1 ≠ connectionName) ∧
      (Bytes.digits 10 r.body.length).length ≤ 20)
    ⟨fun ⟨hs, hb, hn, hv, hu, hl⟩ => ⟨hs, hb, hn, hv, hu, hl⟩,
      fun ⟨hs, hb, hn, hv, hu, hl⟩ => ⟨hs, hb, hn, hv, hu, hl⟩⟩

/-- An answer is a plain response, or an error that does not make the process exit. -/
def Answer.IsPlain : Answer → Prop
  | .response r => r.IsPlain
  | .nothing => False
  | .raised name => (Failure.raised name).exits = false

instance : (answer : Answer) → Decidable answer.IsPlain
  | .response r => inferInstanceAs (Decidable r.IsPlain)
  | .nothing => inferInstanceAs (Decidable False)
  | .raised name => inferInstanceAs (Decidable ((Failure.raised name).exits = false))

/-- If an event is a call, its answer is plain. -/
def Event.IsPlain : Event → Prop
  | .called _ answer => answer.IsPlain
  | _ => True

instance : (event : Event) → Decidable event.IsPlain
  | .called _ answer => inferInstanceAs (Decidable answer.IsPlain)
  | .received _ | .receiveFailed _ | .sent _ | .sendFailed .. | .logged _ =>
    inferInstanceAs (Decidable True)

private theorem isTokenByte_lowerByte :
    ∀ b, isTokenByte b = true → isTokenByte (Bytes.lowerByte b) = true :=
  Bytes.forall_byte (by decide +kernel)

private theorem isToken_toLower {word : Bytes} (h : isToken word = true) :
    isToken (Bytes.toLower word) = true := by
  simp only [isToken, Bool.and_eq_true, Bool.not_eq_true', List.all_eq_true, Bytes.toLower,
    List.isEmpty_map, List.mem_map] at h ⊢
  refine ⟨h.1, ?_⟩
  rintro _ ⟨b, hb, rfl⟩
  exact isTokenByte_lowerByte b (h.2 b hb)

namespace Response.IsPlain

variable {r : Response} (h : r.IsPlain)
include h

private theorem named_eq_nil {name : Bytes}
    (hname : name = contentLength ∨ name = transferEncoding ∨ name = connectionName) :
    named name r.fields = [] := by
  refine List.filter_eq_nil_iff.2 fun f hf => ?_
  obtain ⟨hlength, hcoding, hconnection⟩ := h.unframed f hf
  rcases hname with rfl | rfl | rfl <;> simpa

private theorem statedFields_eq :
    r.statedFields =
      r.fields.map lowerName ++ [(contentLength, Bytes.digits 10 r.body.length)] := by
  have hnone : (r.fields.map lowerName).any (·.1 == contentLength) = false := by
    rw [← Bool.not_eq_true, List.any_eq_true]
    rintro ⟨f, hf, hname⟩
    obtain ⟨g, hg, rfl⟩ := List.mem_map.1 hf
    exact (h.unframed g hg).1 (beq_iff_eq.1 hname)
  unfold statedFields
  rw [if_neg]
  · rfl
  · simpa [lowerName] using hnone

private theorem filter_framing_statedFields :
    r.statedFields.filter (isFramingName ·.1) =
      Coding.counted.fields r.body := by
  have hnone : (r.fields.map lowerName).filter (isFramingName ·.1) = [] := by
    refine List.filter_eq_nil_iff.2 fun f hf => ?_
    obtain ⟨g, hg, rfl⟩ := List.mem_map.1 hf
    obtain ⟨hlength, hcoding, -⟩ := h.unframed g hg
    simp [isFramingName, lowerName, hlength, hcoding]
  rw [h.statedFields_eq, List.filter_append, hnone]
  rfl

theorem checkedFields_eq : r.checkedFields = .ok r.statedFields := by
  have hnames : r.statedFields.all (isToken ·.1) = true := by
    refine List.all_eq_true.2 fun f hf => ?_
    rcases mem_statedFields hf with ⟨g, hg, rfl⟩ | rfl
    · exact isToken_toLower (h.names g hg)
    · exact (by decide : isToken contentLength = true)
  have hvalues : r.statedFields.all (isFieldValue ·.2) = true := by
    refine List.all_eq_true.2 fun f hf => ?_
    rcases mem_statedFields hf with ⟨g, hg, rfl⟩ | rfl
    · exact h.values g hg
    · exact (Bytes.isNumber_digits _).isFieldValue
  have hcoded : Coding.counted.Admits r.body := h.size
  have hframing : checkFraming none false r.statedFields = .ok r.statedFields :=
    checkFraming_coding h.filter_framing_statedFields hcoded
  simp only [checkedFields, h.status.1, h.status.2, hnames, hvalues, hframing]
  rfl

theorem isDelimited : r.IsDelimited where
  accepted := ⟨r.statedFields, h.checkedFields_eq⟩
  bodied := h.bodied
  uncoded := h.named_eq_nil (.inr (.inl rfl))
  untied := h.named_eq_nil (.inr (.inr rfl))
  length := by
    rw [h.named_eq_nil (.inl rfl)]
    simp

/-- A plain response is sent as a whole: a head, and the body if there is one and it was asked for.
Whether the connection lives on is left to the client. -/
theorem transmit_eq {peer : Peer} (htunnel : peer.opensTunnel r = false) :
    transmit peer r =
      ⟨writeHead r.status (r.sentFields peer r.statedFields) ::
          (if peer.wantsHead || r.body.isEmpty then [] else [r.body]),
        none, peer.keepsAlive⟩ :=
  h.isDelimited.transmit_eq h.checkedFields_eq htunnel

end Response.IsPlain

theorem Event.IsPlain.isDelimited {event : Event} (h : event.IsPlain) : event.IsDelimited := by
  cases event with
  | called request answer =>
    cases answer with
    | response r => exact Response.IsPlain.isDelimited h
    | nothing => exact h
    | raised name => exact h
  | _ => trivial

/-! ## What a server says in its own name -/

theorem isPlain_of_status {status : Int} (hstatus : 200 ≤ status ∧ status < 1000)
    (hbodied : status ≠ 204 ∧ status ≠ 304) : Response.IsPlain { status := status } :=
  ⟨hstatus, hbodied, by simp, by simp, by simp, by rw [List.length_nil]; decide⟩

theorem Fault.status_mem (fault : Fault) : fault.status ∈ ([400, 413, 431, 501] : List Int) := by
  cases fault <;> simp [status]

theorem Fault.not_status_lt (fault : Fault) : ¬ fault.status < 300 := by
  cases fault <;> simp [status]

theorem isPlain_refusal (fault : Fault) : Response.IsPlain { status := fault.status } := by
  have hmem := fault.status_mem
  simp only [List.mem_cons, List.not_mem_nil, or_false] at hmem
  exact isPlain_of_status (by omega) (by omega)

def refusalHead (peer : Peer) (fault : Fault) : Bytes :=
  let r : Response := { status := fault.status }
  writeHead r.status (r.sentFields peer r.statedFields)

theorem transmit_refusal (peer : Peer) (fault : Fault) :
    transmit peer { status := fault.status } =
      ⟨[refusalHead peer fault], none, peer.keepsAlive⟩ := by
  have htunnel : peer.opensTunnel { status := fault.status } = false := by
    simp only [Peer.opensTunnel, Bool.and_eq_false_iff, decide_eq_false_iff_not]
    exact .inr fault.not_status_lt
  rw [(isPlain_refusal fault).transmit_eq htunnel]
  simp [refusalHead]

theorem transmit_failureResponse (peer : Peer) :
    transmit peer failureResponse =
      ⟨[writeHead 500 (failureResponse.sentFields peer failureResponse.statedFields)], none,
        peer.keepsAlive⟩ := by
  have hplain : failureResponse.IsPlain := isPlain_of_status (by decide) (by decide)
  have htunnel : peer.opensTunnel failureResponse = false := by
    simp [Peer.opensTunnel, failureResponse]
  rw [hplain.transmit_eq htunnel]
  simp [failureResponse]

end TlsGate.Http
