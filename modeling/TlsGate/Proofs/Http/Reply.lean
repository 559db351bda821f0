import TlsGate.Http.Reply
import TlsGate.Proofs.Http.Framing

/-!
When a response keeps the connection. The fields that a response is sent with differ from those that
the application gave only in what they say of the framing, so a response that does not ask for the
end of the connection leaves that to the client.
-/

set_option autoImplicit false
set_option relaxedAutoImplicit false

namespace TlsGate.Http

def lowerName (f : Field) : Field := (Bytes.toLower f.1, f.2)

def named (name : Bytes) (fs : List Field) : List Field :=
  fs.filter fun f => Bytes.toLower f.1 == name

private theorem lowerByte_idem :
    ∀ b, Bytes.lowerByte (Bytes.lowerByte b) = Bytes.lowerByte b :=
  Bytes.forall_byte (by decide +kernel)

@[simp] theorem toLower_idem (word : Bytes) :
    Bytes.toLower (Bytes.toLower word) = Bytes.toLower word := by
  simp only [Bytes.toLower, List.map_map]
  exact List.map_congr_left fun b _ => lowerByte_idem b

section named

variable {name : Bytes}

theorem named_append (fs gs : List Field) :
    named name (fs ++ gs) = named name fs ++ named name gs :=
  List.filter_append ..

private theorem named_lowerName (fs : List Field) :
    named name (fs.map lowerName) = (named name fs).map lowerName := by
  simp only [named, List.filter_map]
  congr 1
  refine List.filter_congr fun f _ => ?_
  simp [lowerName]

private theorem named_withoutField {other : Bytes} (hne : other ≠ name) (fs : List Field) :
    named name (withoutField other fs) = named name fs := by
  rw [named, withoutField, List.filter_filter]
  refine List.filter_congr fun f _ => ?_
  by_cases hf : Bytes.toLower f.1 = name
  · simp [hf, Ne.symm hne]
  · simp [hf]

theorem elements_lowerName (fs : List Field) :
    elements name (fs.map lowerName) = elements name ((named name fs).map lowerName) := by
  rw [elements, elements, List.filter_map, List.filter_map, named, List.filter_filter]
  congr 2
  refine List.filter_congr fun f _ => ?_
  simp [lowerName]

private theorem named_cons_ne {f : Field} (hne : Bytes.toLower f.1 ≠ name) (fs : List Field) :
    named name (f :: fs) = named name fs :=
  List.filter_cons_of_neg (by simpa using hne)

private theorem named_filter_not_framing (hlength : contentLength ≠ name)
    (hcoding : transferEncoding ≠ name) (fs : List Field) :
    named name (fs.filter (!isFramingName ·.1)) = named name fs := by
  rw [named, List.filter_filter]
  refine List.filter_congr fun f _ => ?_
  by_cases hname : Bytes.toLower f.1 = name
  · have hl : Bytes.toLower contentLength = contentLength := by decide
    have hc : Bytes.toLower transferEncoding = transferEncoding := by decide
    have hframing : isFramingName f.1 = false := by
      simp only [isFramingName, Bool.or_eq_false_iff, beq_eq_false_iff_ne]
      constructor
      · intro heq
        exact hlength (hl.symm.trans (heq ▸ hname))
      · intro heq
        exact hcoding (hc.symm.trans (heq ▸ hname))
    simp [hframing]
  · simp [hname]

private theorem named_checkFraming (hlength : contentLength ≠ name)
    (hcoding : transferEncoding ≠ name)
    {length : Option Bytes} {coded : Bool} {fs checked : List Field}
    (h : checkFraming length coded fs = .ok checked) : named name checked = named name fs := by
  rw [← named_filter_not_framing hlength hcoding checked, filter_not_framing h,
    named_filter_not_framing hlength hcoding]

end named

namespace Response

variable {r : Response}

private theorem named_statedFields (r : Response) :
    named connectionName r.statedFields = (named connectionName r.fields).map lowerName := by
  have hfields : named connectionName (r.fields.map fun f => (Bytes.toLower f.1, f.2)) =
      (named connectionName r.fields).map lowerName := named_lowerName r.fields
  simp only [statedFields]
  split
  · exact hfields
  · rw [named_append, hfields]
    have hne : Bytes.toLower contentLength ≠ connectionName := by decide
    have hnone (value : Bytes) : named connectionName [(contentLength, value)] = [] :=
      named_cons_ne hne []
    rw [hnone, List.append_nil]

structure IsChecked (r : Response) (stated : List Field) : Prop where
  status : 200 ≤ r.status ∧ r.status < 1000
  names : ∀ f ∈ r.statedFields, isToken f.1 = true
  values : ∀ f ∈ r.statedFields, isFieldValue f.2 = true
  framing : checkFraming none false r.statedFields = .ok stated

theorem isChecked_of_ok {stated : List Field} (h : r.checkedFields = .ok stated) :
    r.IsChecked stated := by
  unfold checkedFields at h
  simp only at h
  split at h
  · cases h
  · rename_i hstatus
    split at h
    · cases h
    · rename_i hnames
      split at h
      · cases h
      · rename_i hvalues
        split at h
        · rename_i hframing
          cases h
          simp only [Bool.not_eq_true, Bool.not_eq_false', Bool.and_eq_true,
            decide_eq_true_eq] at hstatus hnames hvalues
          exact ⟨hstatus, List.all_eq_true.1 hnames, List.all_eq_true.1 hvalues, hframing⟩
        · cases h

theorem named_checkedFields {stated : List Field} (h : r.checkedFields = .ok stated) :
    named connectionName stated = (named connectionName r.fields).map lowerName := by
  rw [named_checkFraming (by decide) (by decide) (isChecked_of_ok h).framing, named_statedFields]

end Response

/-! ## What a response is sent with -/

def Peer.opensTunnel (peer : Peer) (r : Response) : Bool :=
  peer.method == some connectMethod && r.status < 300

def Peer.wantsHead (peer : Peer) : Bool := peer.method == some headMethod

namespace Response

variable (peer : Peer) (r : Response) (stated : List Field)

def isBodiless : Bool := r.status == 204 || r.status == 304 || peer.opensTunnel r

def isCoded : Bool := !r.isBodiless peer && !(elements transferEncoding stated).isEmpty

def framed : List Field :=
  let plain := withoutField contentLength (withoutField transferEncoding stated)
  if !r.isCoded peer stated then stated
  else if peer.modern then plain ++ [(Bytes.ofString "Transfer-Encoding", chunkedCoding)]
  else plain

def mustClose : Bool :=
  !peer.keepsAlive || (r.isCoded peer stated && !peer.modern && !peer.wantsHead)

def sentFields : List Field :=
  if r.mustClose peer stated then withClose (r.framed peer stated) else r.framed peer stated

def bodyForm : BodyForm :=
  if peer.wantsHead || r.isBodiless peer then .counted 0
  else match r.isCoded peer stated, peer.modern,
      elements contentLength ((r.sentFields peer stated).map lowerName) with
    | true, true, _ => .chunked
    | _, _, length :: _ => .counted (Bytes.decimalValue length)
    | _, _, [] => .untilClose

def sentBody : List Bytes × Option Unsendable :=
  bodyPieces (r.bodyForm peer stated) (if peer.wantsHead then [] else r.body)

def letsLive : Bool :=
  peer.keepsAlive &&
    !(elements connectionName ((r.sentFields peer stated).map lowerName)).contains closeOption

variable {peer r stated}

theorem transmit_of_error {why : Unsendable} (h : r.checkedFields = .error why) :
    transmit peer r = ⟨[], some why, false⟩ := by
  simp only [transmit, h]

theorem transmit_of_ok (h : r.checkedFields = .ok stated) :
    transmit peer r =
      if peer.opensTunnel r then
        ⟨[writeHead r.status (r.sentFields peer stated)], some .switched, false⟩
      else
        ⟨writeHead r.status (r.sentFields peer stated) :: (r.sentBody peer stated).1,
          (r.sentBody peer stated).2,
          r.letsLive peer stated && (r.sentBody peer stated).2.isNone⟩ := by
  rewrite [transmit, h]
  rfl

/-! ## Keeping the connection -/

/-- A response that can be sent to a client, and that does not itself end the connection. -/
structure IsAccepted (peer : Peer) (r : Response) : Prop where
  sendable : (transmit peer r).fault = none
  staysOpen : closeOption ∉ elements connectionName (r.fields.map lowerName)

instance (peer : Peer) (r : Response) : Decidable (r.IsAccepted peer) :=
  decidable_of_iff
    ((transmit peer r).fault = none ∧
      closeOption ∉ elements connectionName (r.fields.map lowerName))
    ⟨fun ⟨hfault, hopen⟩ => ⟨hfault, hopen⟩, fun ⟨hfault, hopen⟩ => ⟨hfault, hopen⟩⟩

private theorem named_framed (peer : Peer) (r : Response) (stated : List Field) :
    named connectionName (r.framed peer stated) = named connectionName stated := by
  have hplain : named connectionName (withoutField contentLength
      (withoutField transferEncoding stated)) = named connectionName stated := by
    rw [named_withoutField (by decide), named_withoutField (by decide)]
  have hcoding :
      named connectionName [(Bytes.ofString "Transfer-Encoding", chunkedCoding)] = [] := by
    decide
  simp only [framed]
  split
  · rfl
  · split
    · rw [named_append, hplain, hcoding, List.append_nil]
    · exact hplain

theorem letsLive_eq (h : r.checkedFields = .ok stated)
    (hopen : closeOption ∉ elements connectionName (r.fields.map lowerName))
    (hpeer : peer.keepsAlive = true → peer.modern = true) :
    r.letsLive peer stated = peer.keepsAlive := by
  cases hkeep : peer.keepsAlive with
  | false => simp [letsLive, hkeep]
  | true =>
    have hsent : r.sentFields peer stated = r.framed peer stated := by
      simp [sentFields, mustClose, hkeep, hpeer hkeep]
    have hlower (fs : List Field) : (fs.map lowerName).map lowerName = fs.map lowerName := by
      rw [List.map_map]
      exact List.map_congr_left fun f _ => by simp [lowerName]
    have helements : elements connectionName ((r.sentFields peer stated).map lowerName) =
        elements connectionName (r.fields.map lowerName) := by
      rw [hsent, elements_lowerName, named_framed, named_checkedFields h, hlower,
        ← elements_lowerName]
    rw [letsLive, hkeep, helements]
    simpa using hopen

theorem IsAccepted.transmit_keepsAlive (h : r.IsAccepted peer)
    (hpeer : peer.keepsAlive = true → peer.modern = true) :
    (transmit peer r).keepsAlive = peer.keepsAlive := by
  obtain ⟨hfault, hopen⟩ := h
  cases hchecked : r.checkedFields with
  | error why =>
    rw [transmit_of_error hchecked] at hfault
    cases hfault
  | ok stated =>
    rw [transmit_of_ok hchecked] at hfault ⊢
    split at hfault
    · cases hfault
    · rename_i htunnel
      rw [if_neg htunnel]
      simp only at hfault ⊢
      rw [hfault, letsLive_eq hchecked hopen hpeer]
      exact Bool.and_true _

end Response

end TlsGate.Http
