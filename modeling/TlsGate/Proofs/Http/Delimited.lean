import TlsGate.Http.Handler
import TlsGate.Proofs.Http.Reply

/-!
Responses that are delimited by their length. If the fields of a response leave the coding and the
connection to the server, and state no length but that of the body, then the response is sent with
exactly one length; the fields that an application gave stand before what the server adds.
-/

set_option autoImplicit false
set_option relaxedAutoImplicit false

namespace TlsGate.Http

def closingField : Field := (Bytes.ofString "Connection", closeOption)

private theorem withClose_of_untied {fs : List Field} (huntied : named connectionName fs = []) :
    withClose fs = fs ++ [closingField] := by
  have hall : ∀ f ∈ fs, Bytes.toLower f.1 ≠ connectionName := by
    intro f hf hname
    exact List.filter_eq_nil_iff.1 huntied f hf (by simp [hname])
  have hkept : withoutField connectionName fs = fs := by
    refine List.filter_eq_self.2 fun f hf => ?_
    simpa using hall f hf
  have helements : elements connectionName fs = [] := by
    have hnone : fs.filter (·.1 == connectionName) = [] := by
      refine List.filter_eq_nil_iff.2 fun f hf hname => hall f hf ?_
      have hlower : Bytes.toLower connectionName = connectionName := by decide
      rw [beq_iff_eq.1 hname, hlower]
    rw [elements, hnone]
    rfl
  have hclosing : closingElements fs = [closeOption] := by
    rw [closingElements, helements]
    simp [sortWords, List.eraseDups_cons]
  rw [withClose, hkept, hclosing]
  rfl

/-! ## The fields that come out of the checks -/

namespace Response

variable {r : Response} {stated : List Field}

private theorem toLower_statedFields (r : Response) :
    ∀ f ∈ r.statedFields, Bytes.toLower f.1 = f.1 := by
  have hfields : ∀ f ∈ r.fields.map fun f => (Bytes.toLower f.1, f.2),
      Bytes.toLower f.1 = f.1 := by
    intro f hf
    obtain ⟨g, -, rfl⟩ := List.mem_map.1 hf
    exact toLower_idem g.1
  intro f hf
  simp only [statedFields] at hf
  split at hf
  · exact hfields f hf
  · rcases List.mem_append.1 hf with hf | hf
    · exact hfields f hf
    · obtain rfl := List.mem_singleton.1 hf
      exact (by decide : Bytes.toLower contentLength = contentLength)

private theorem exists_length_statedFields (r : Response) :
    ∃ f ∈ r.statedFields, f.1 = contentLength := by
  simp only [statedFields]
  split
  · rename_i hany
    obtain ⟨f, hf, hname⟩ := List.any_eq_true.1 hany
    exact ⟨f, hf, beq_iff_eq.1 hname⟩
  · exact ⟨_, List.mem_append_right _ List.mem_cons_self, rfl⟩

theorem mem_statedFields {f : Field} (hf : f ∈ r.statedFields) :
    (∃ g ∈ r.fields, f = lowerName g) ∨ f = (contentLength, Bytes.digits 10 r.body.length) := by
  have hfields (hmem : f ∈ r.fields.map lowerName) : ∃ g ∈ r.fields, f = lowerName g := by
    obtain ⟨g, hg, rfl⟩ := List.mem_map.1 hmem
    exact ⟨g, hg, rfl⟩
  simp only [statedFields] at hf
  split at hf
  · exact .inl (hfields hf)
  · rcases List.mem_append.1 hf with hf | hf
    · exact .inl (hfields hf)
    · exact .inr (List.mem_singleton.1 hf)

theorem filter_not_framing_statedFields (r : Response) :
    r.statedFields.filter (!isFramingName ·.1) =
      (r.fields.map lowerName).filter (!isFramingName ·.1) := by
  simp only [statedFields]
  split
  · rfl
  · rw [List.filter_append]
    exact List.append_nil _

namespace IsChecked

variable (h : r.IsChecked stated)
include h

theorem wellFormed : ∀ f ∈ stated,
    isToken f.1 = true ∧ Bytes.toLower f.1 = f.1 ∧ isFieldValue f.2 = true := by
  intro f hf
  obtain ⟨g, hg, hname, hvalue⟩ := mem_checkFraming h.framing f hf
  rw [← hname]
  refine ⟨h.names g hg, r.toLower_statedFields g hg, ?_⟩
  rcases hvalue with heq | hlength | heq
  · rw [heq]
    exact h.values g hg
  · exact hlength.isFieldValue
  · rw [heq]
    decide

private theorem map_lowerName : stated.map lowerName = stated := by
  have hself : ∀ f ∈ stated, lowerName f = id f := by
    intro f hf
    exact Prod.ext (h.wellFormed f hf).2.1 rfl
  rw [List.map_congr_left hself, List.map_id]

end IsChecked

/-! ## Delimited responses -/

/-- A response that can be sent and may have a body, and that says nothing of the coding or the
connection and nothing wrong of the length. -/
structure IsDelimited (r : Response) : Prop where
  accepted : ∃ stated, r.checkedFields = .ok stated
  bodied : r.status ≠ 204 ∧ r.status ≠ 304
  uncoded : named transferEncoding r.fields = []
  untied : named connectionName r.fields = []
  length : ∀ f ∈ named contentLength r.fields,
    (parseLength f.2).toOption.map Bytes.decimalValue = some r.body.length

instance (r : Response) : Decidable r.IsDelimited :=
  decidable_of_iff
    (r.checkedFields.isOk = true ∧ (r.status ≠ 204 ∧ r.status ≠ 304) ∧
      named transferEncoding r.fields = [] ∧ named connectionName r.fields = [] ∧
      ∀ f ∈ named contentLength r.fields,
        (parseLength f.2).toOption.map Bytes.decimalValue = some r.body.length)
    ⟨fun ⟨ha, hb, hc, ht, hl⟩ => ⟨isOk_iff.1 ha, hb, hc, ht, hl⟩,
      fun ⟨ha, hb, hc, ht, hl⟩ => ⟨isOk_iff.2 ha, hb, hc, ht, hl⟩⟩

end Response

/-- An answer is a delimited response, or an error that does not make the process exit. -/
def Answer.IsDelimited : Answer → Prop
  | .response r => r.IsDelimited
  | .nothing => False
  | .raised name => (Failure.raised name).exits = false

instance : (answer : Answer) → Decidable answer.IsDelimited
  | .response r => inferInstanceAs (Decidable r.IsDelimited)
  | .nothing => inferInstanceAs (Decidable False)
  | .raised name => inferInstanceAs (Decidable ((Failure.raised name).exits = false))

/-- If an event is a call, its answer is delimited. -/
def Event.IsDelimited : Event → Prop
  | .called _ answer => answer.IsDelimited
  | _ => True

instance : (event : Event) → Decidable event.IsDelimited
  | .called _ answer => inferInstanceAs (Decidable answer.IsDelimited)
  | .received _ | .receiveFailed _ | .sent _ | .sendFailed .. | .logged _ =>
    inferInstanceAs (Decidable True)

namespace Response.IsDelimited

variable {r : Response} {stated : List Field} {peer : Peer} (h : r.IsDelimited)
  (hstated : r.checkedFields = .ok stated)
include h hstated

theorem ne_coding : ∀ f ∈ stated, f.1 ≠ transferEncoding := by
  intro f hf hname
  obtain ⟨g, hg, hsame, -⟩ := mem_checkFraming (isChecked_of_ok hstated).framing f hf
  rw [← hsame] at hname
  rcases mem_statedFields hg with ⟨given, hgiven, rfl⟩ | rfl
  · exact List.filter_eq_nil_iff.1 h.uncoded given hgiven (beq_iff_eq.2 hname)
  · exact absurd hname (by decide : contentLength ≠ transferEncoding)

theorem elements_coding : elements transferEncoding stated = [] := by
  have hnone : stated.filter (·.1 == transferEncoding) = [] := by
    refine List.filter_eq_nil_iff.2 fun f hf hname => ?_
    exact h.ne_coding hstated f hf (beq_iff_eq.1 hname)
  rw [elements, hnone]
  rfl

theorem untied_stated : named connectionName stated = [] := by
  rw [named_checkedFields hstated, h.untied]
  rfl

theorem filter_length : ∃ word : Bytes, word.IsLength ∧ Bytes.decimalValue word = r.body.length ∧
    stated.filter (·.1 == contentLength) = [(contentLength, word)] := by
  obtain ⟨f, hf, hname, word, hword, hfilter⟩ :=
    filter_length_of_none (isChecked_of_ok hstated).framing r.exists_length_statedFields
  have hlength := parseLength_isLength hword
  refine ⟨word, hlength, ?_, hfilter⟩
  rcases mem_statedFields hf with ⟨given, hgiven, rfl⟩ | rfl
  · have hmem : given ∈ named contentLength r.fields :=
      List.mem_filter.2 ⟨hgiven, beq_iff_eq.2 hname⟩
    have hvalue := h.length given hmem
    rw [show parseLength given.2 = .ok word from hword] at hvalue
    exact Option.some.inj hvalue
  · rw [parseLength_of_isNumber (Bytes.isNumber_digits _) hword, Bytes.decimalValue_digits]

theorem sentFields_eq : r.sentFields peer stated =
    stated ++ if peer.keepsAlive then [] else [closingField] := by
  have hcoded : r.isCoded peer stated = false := by
    simp [isCoded, h.elements_coding hstated]
  have hclose : r.mustClose peer stated = !peer.keepsAlive := by
    simp [mustClose, hcoded]
  have hframed : r.framed peer stated = stated := by
    simp [framed, hcoded]
  rw [sentFields, hclose, hframed]
  cases peer.keepsAlive with
  | true => exact (List.append_nil _).symm
  | false => exact withClose_of_untied (h.untied_stated hstated)

theorem elements_sentFields {name : Bytes} (hne : connectionName ≠ name) :
    elements name ((r.sentFields peer stated).map lowerName) = elements name stated := by
  have hlower : (lowerName closingField).1 = connectionName := by decide
  have hlast : ((if peer.keepsAlive then [] else [closingField]).map lowerName).filter
      (·.1 == name) = [] := by
    cases peer.keepsAlive <;> simp [hlower, hne]
  rw [h.sentFields_eq hstated, List.map_append, (isChecked_of_ok hstated).map_lowerName, elements,
    List.filter_append, hlast, List.append_nil]
  rfl

theorem elements_length : ∃ word : Bytes, word.IsLength ∧
    Bytes.decimalValue word = r.body.length ∧ elements contentLength stated = [word] := by
  obtain ⟨word, hword, hvalue, hfilter⟩ := h.filter_length hstated
  refine ⟨word, hword, hvalue, ?_⟩
  have hone := hword.elements
  rw [elements, List.filter_cons_of_pos (by simp), List.filter_nil] at hone
  rw [elements, hfilter, hone]

theorem letsLive_eq : r.letsLive peer stated = peer.keepsAlive := by
  cases hkeep : peer.keepsAlive with
  | false => simp [letsLive, hkeep]
  | true =>
    have hnone : elements connectionName stated = [] := by
      rw [← (isChecked_of_ok hstated).map_lowerName, elements_lowerName,
        h.untied_stated hstated]
      rfl
    rw [letsLive, hkeep, h.sentFields_eq hstated, hkeep, if_pos rfl, List.append_nil,
      (isChecked_of_ok hstated).map_lowerName, hnone]
    rfl

/-- A delimited response is sent as a whole: a head, and the body if there is one and it was asked
for. Whether the connection lives on is left to the client. -/
theorem transmit_eq (htunnel : peer.opensTunnel r = false) :
    transmit peer r =
      ⟨writeHead r.status (r.sentFields peer stated) ::
          (if peer.wantsHead || r.body.isEmpty then [] else [r.body]),
        none, peer.keepsAlive⟩ := by
  obtain ⟨word, -, hvalue, helements⟩ := h.elements_length hstated
  have hbodied : r.isBodiless peer = false := by
    simp [isBodiless, h.bodied.1, h.bodied.2, htunnel]
  have hcoded : r.isCoded peer stated = false := by
    simp [isCoded, h.elements_coding hstated]
  have hform : r.bodyForm peer stated =
      if peer.wantsHead then .counted 0 else .counted r.body.length := by
    rw [bodyForm, hbodied, hcoded, h.elements_sentFields hstated (by decide), helements,
      Bool.or_false]
    simp only [hvalue]
  have hbody : r.sentBody peer stated =
      (if peer.wantsHead || r.body.isEmpty then [] else [r.body], none) := by
    rw [sentBody, hform]
    cases peer.wantsHead <;> simp [bodyPieces]
  rw [transmit_of_ok hstated, htunnel, if_neg Bool.false_ne_true, hbody, h.letsLive_eq hstated]
  simp

end Response.IsDelimited

theorem Response.IsDelimited.isSendable {r : Response} {peer : Peer} (h : r.IsDelimited)
    (htunnel : peer.opensTunnel r = false) : (transmit peer r).fault = none := by
  obtain ⟨stated, hstated⟩ := h.accepted
  rw [h.transmit_eq hstated htunnel]

end TlsGate.Http
