import TlsGate.Proofs.Policy.Admission
import TlsGate.Proofs.Tls.Phases

/-!
Who gets through a handshake. What engines do with the certificates of clients is stated of any
engines, and follows for the engine that performs handshakes here: it never completes one for a
client that is not admitted, however it is driven. So of the handshakes that are valid otherwise,
exactly those complete whose client meets the demand of the policy, with every kind of context.
-/

set_option autoImplicit false
set_option relaxedAutoImplicit false

namespace TlsGate.Tls

open Config Pki Policy

section Engines

variable {ε : Type}

/-- A handshake on a transport completes. -/
def Stack.Completes (stack : Stack ε) (c : Context) (offer : Offer) (t : Script) : Prop :=
  ∃ channel, stack.wrap c offer t = (none, channel)

/-- What engines do with the certificates of clients in handshakes that are valid otherwise. A
client is asked for a certificate only if the context says so. One that has none is turned away if
the context demands one, and one that has a certificate unless the context accepts every verdict on
what it sent, given the certificates that the context trusts. -/
structure Stack.Checks (stack : Stack ε) (here : Surroundings)
    (IsValid : Context → Offer → Script → Prop) : Prop where
  unasked : ∀ {c offer t}, IsValid c offer t → c.asks = false → stack.Completes c offer t
  missing : ∀ {c offer t}, IsValid c offer t → c.asks = true → offer.chain = [] →
    (stack.Completes c offer t ↔ c.demands = false)
  presented : ∀ {c offer t own offered}, IsValid c offer t → c.asks = true →
    offer.chain = own :: offered →
    (stack.Completes c offer t ↔
      ∀ verdict ∈ here.verdicts (trusted here c.roots) own offered, c.accepts verdict = true)

theorem Stack.Checks.completes_iff {stack : Stack ε} {here : Surroundings}
    {IsValid : Context → Offer → Script → Prop} (h : stack.Checks here IsValid) {c : Context}
    {offer : Offer} {t : Script} (hvalid : IsValid c offer t) :
    stack.Completes c offer t ↔ c.admits here offer.chain = true := by
  cases hasks : c.asks with
  | false =>
    have hcompletes := h.unasked hvalid hasks
    cases offer.chain <;> simp [Context.admits, hasks, hcompletes]
  | true =>
    cases hchain : offer.chain with
    | nil => simp [h.missing hvalid hasks hchain, Context.admits, hasks]
    | cons own offered => simp [h.presented hvalid hasks hchain, Context.admits, hasks]

end Engines

namespace Session

def IsBarred (s : Session) : Prop := s.admits = false ∧ s.phase ≠ .established

private theorem isKept_isBarred : IsKept IsBarred where
  bytes _ _ _ h := h
  failed h := ⟨h.1, nofun⟩
  greeted h _ := ⟨h.1, nofun⟩
  established h _ hadmits := by
    rw [h.1] at hadmits
    cases hadmits

def welcomingStack (here : Surroundings) : Stack Session :=
  { stack here with start := fun c offer => { make here c offer with admits := true } }

end Session

theorem Stack.exists_done_of_wrap {ε : Type} {stack : Stack ε} {c : Context} {offer : Offer}
    {t : Script} {channel : Channel ε} (h : stack.wrap c offer t = (none, channel)) :
    ∃ emitted e, stack.engine.Driven (stack.start c offer) emitted e ∧
      (stack.engine.handshake e).attempt = .done () := by
  cases c with
  | verifying c =>
    have hc := (Relay.call_mediated stack.engine.drives_handshake .badRecord
      { engine := stack.start (.verifying c) offer, transport := t } (.start ..)).2 ()
    simp only [wrap, Relay.handshake] at h
    split at h <;> rename_i hcall <;> simp only [hcall] at hc
    · exact hc trivial
    · simp at h
  | callback c =>
    have hc := (Pump.call_mediated stack.engine.drives_handshake
      { engine := stack.start (.callback c) offer, transport := t } (.start ..)).2 ()
    simp only [wrap, Pump.handshake] at h
    split at h <;> rename_i hcall <;> simp only [hcall] at hc
    · exact hc trivial
    · simp at h
    · simp at h

theorem Session.wrap_ne_none {here : Surroundings} {c : Context} {offer : Offer}
    (h : c.admits here offer.chain = false) (t : Script) (channel : Channel Session) :
    (stack here).wrap c offer t ≠ (none, channel) := by
  intro hwrap
  obtain ⟨emitted, e, hd, he⟩ := Stack.exists_done_of_wrap hwrap
  have hfirst : ((stack here).start c offer).IsBarred := ⟨h, by simp [stack, make]⟩
  have hlast : e.handshake.next.IsBarred := keeps_of_driven isKept_isBarred hfirst hd.handshake
  exact hlast.2 (handshake_established he)

theorem Stack.wrap_congr {ε : Type} {stack stack' : Stack ε} {c : Context} {offer offer' : Offer}
    (hengine : stack.engine = stack'.engine) (hstart : stack.start c offer = stack'.start c offer')
    (t : Script) : stack.wrap c offer t = stack'.wrap c offer' t := by
  cases c <;> simp only [wrap, hengine, hstart]

/-- A handshake of these engines is valid otherwise if it would complete were every client
admitted. -/
def Session.Welcomes (here : Surroundings) (c : Context) (offer : Offer) (t : Script) : Prop :=
  (welcomingStack here).Completes c offer t

theorem Session.completes_iff {here : Surroundings} {c : Context} {offer : Offer} {t : Script}
    (hvalid : Welcomes here c offer t) :
    (stack here).Completes c offer t ↔ c.admits here offer.chain = true := by
  obtain ⟨welcomed, hvalid⟩ := hvalid
  constructor
  · rintro ⟨channel, hwrap⟩
    cases hadmits : c.admits here offer.chain with
    | true => rfl
    | false => exact absurd hwrap (wrap_ne_none hadmits t channel)
  · intro hadmits
    have hstart : (stack here).start c offer = (welcomingStack here).start c offer := by
      simp only [welcomingStack, stack, make, hadmits]
    have hengine : (stack here).engine = (welcomingStack here).engine := rfl
    exact ⟨welcomed, (Stack.wrap_congr hengine hstart t).trans hvalid⟩

theorem Session.stack_checks (here : Surroundings) :
    (stack here).Checks here (Welcomes here) where
  unasked {c offer t} hvalid hasks := by
    rw [completes_iff hvalid]
    cases offer.chain <;> simp [Context.admits, hasks]
  missing hvalid hasks hchain := by simp [completes_iff hvalid, hchain, Context.admits, hasks]
  presented hvalid hasks hchain := by simp [completes_iff hvalid, hchain, Context.admits, hasks]

/-- Whichever context is made from a policy, a client is admitted exactly if it meets the demand of
the policy, and with engines that check certificates as they are told, a handshake that is valid
otherwise completes exactly then. Contexts of either kind for policies of one mode agree if the
policies have the same pool, and if the mode does not verify they agree whatever the pools are. -/
theorem admission_by_demand [KeyLibrary] {ε : Type} (stack : Stack ε) (here : Surroundings)
    (IsValid : Context → Offer → Script → Prop) (hchecks : stack.Checks here IsValid)
    (at' : Moments) (protocols? : Option (List String)) (p : SecurityPolicy) (c : Context)
    (hc : p.Makes at' protocols? c) :
    (∀ chain, c.admits here chain = true ↔ p.IsSatisfiedBy here chain) ∧
    (∀ offer t, IsValid c offer t →
      (stack.Completes c offer t ↔ p.IsSatisfiedBy here offer.chain)) ∧
    (∀ at'' offered? (q : SecurityPolicy) (d : Context), q.Makes at'' offered? d →
      q.clientAuth = p.clientAuth →
      p.clientAuth = .request ∨ p.clientAuth = .requireAny ∨ q.pool? = p.pool? →
      (∀ chain, d.admits here chain = c.admits here chain) ∧
        ∀ offer t t', IsValid c offer t → IsValid d offer t' →
          (stack.Completes d offer t' ↔ stack.Completes c offer t)) := by
  refine ⟨admits_iff_isSatisfiedBy hc, fun offer t hvalid => ?_, ?_⟩
  · rw [hchecks.completes_iff hvalid, admits_iff_isSatisfiedBy hc]
  · intro at'' offered? q d hd hmode hpool
    have hpool' : p.clientAuth.acceptsUntrusted = true ∨ q.pool? = p.pool? := by
      rcases hpool with hm | hm | hm
      · exact .inl (by rw [hm]; rfl)
      · exact .inl (by rw [hm]; rfl)
      · exact .inr hm
    have hsame (chain : List Certificate) : d.admits here chain = c.admits here chain := by
      rw [Bool.eq_iff_iff, admits_iff_isSatisfiedBy hd, admits_iff_isSatisfiedBy hc]
      exact isSatisfiedBy_congr hmode hpool' chain
    refine ⟨hsame, fun offer t t' hvalid hvalid' => ?_⟩
    rw [hchecks.completes_iff hvalid, hchecks.completes_iff hvalid', hsame]

local instance admissionKeys : KeyLibrary := .standard

def distrust : Surroundings := { verdicts := fun _ _ _ => [false] }

def requireAnyPolicy : SecurityPolicy :=
  { provider? := some (.fixed Sample.onceCredential), clientAuth := .requireAny }

def requireAnyContext : Context :=
  .callback ⟨[.peer, .failIfNoPeer], true, [], .nothing,
    some ⟨Sample.onceLeaf, [], Sample.once.key⟩, none⟩

def clientMessages : Script := { items := [.data (Record.hello ++ Record.finished)] }

/-- A client without a certificate is turned away, and one with a certificate of nobody is not. -/
theorem admission_by_demand_requireAny :
    ((Session.stack distrust).Checks distrust (Session.Welcomes distrust) ∧
      requireAnyPolicy.Makes (.at {}) none requireAnyContext) ∧
    ¬ (Session.stack distrust).Completes requireAnyContext {} clientMessages ∧
    (Session.stack distrust).Completes requireAnyContext { chain := [Sample.onceLeaf] }
      clientMessages := by
  have hmakes : requireAnyPolicy.Makes (.at {}) none requireAnyContext :=
    .suitable (by decide +kernel)
  have hwelcomed : ∀ offer ∈ [({} : Offer), { chain := [Sample.onceLeaf] }],
      ((Session.welcomingStack distrust).wrap requireAnyContext offer clientMessages).1 = none := by
    decide +kernel
  have hvalid (offer : Offer) (hoffer : offer ∈ [{}, { chain := [Sample.onceLeaf] }]) :
      Session.Welcomes distrust requireAnyContext offer clientMessages :=
    ⟨_, Prod.ext (hwelcomed offer hoffer) rfl⟩
  have hadmission := (admission_by_demand (Session.stack distrust) distrust
    (Session.Welcomes distrust) (Session.stack_checks distrust) _ _ _ _ hmakes).2.1
  refine ⟨⟨Session.stack_checks distrust, hmakes⟩, ?_, ?_⟩
  · rw [hadmission {} _ (hvalid _ (by simp))]
    intro hs
    exact hs.presented (.inl rfl) rfl
  · rw [hadmission { chain := [Sample.onceLeaf] } _ (hvalid _ (by simp))]
    exact ⟨fun _ => by simp, nofun⟩

end TlsGate.Tls
