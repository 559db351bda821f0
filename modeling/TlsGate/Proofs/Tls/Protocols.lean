import TlsGate.Proofs.Policy.Admission
import TlsGate.Proofs.Policy.Alpn
import TlsGate.Proofs.Policy.Pairing
import TlsGate.Proofs.Tls.Calls
import TlsGate.Proofs.Tls.ClientAdmission

/-!
The application protocol of a handshake. Engines of either kind select it in the order of the
server's list, and nothing else of a handshake depends on the protocols: one that completes without
them completes with them, whether or not the parties have one in common.
-/

set_option autoImplicit false
set_option relaxedAutoImplicit false

namespace TlsGate

namespace Policy

open Tls

/-- The context with other protocols to offer. -/
def Context.withProtocols (protocols? : Option (List Bytes)) : Context → Context
  | .verifying c => .verifying { c with protocols? := protocols? }
  | .callback c => .callback { c with protocols? := protocols? }

/-- The protocol that is selected of some offers: an engine with a callback has it select, and a
verifying engine has `next` select from the encoded lists. -/
def Context.selection? (next : Bytes → Bytes → Option Bytes) (offered : List Bytes) :
    Context → Option Bytes
  | .verifying c =>
    c.protocols?.bind fun supported => next (Alpn.packed supported) (Alpn.packed offered)
  | .callback c => c.protocols?.bind fun supported => Alpn.select supported offered

private theorem Context.selection?_eq {next : Bytes → Bytes → Option Bytes}
    (hnext : Alpn.SelectsNext next)
    {c : Context} {offered : List Bytes}
    (hsupported : ∀ supported, c.protocols? = some supported →
      ∀ name ∈ supported, Alpn.IsWireName name)
    (hoffered : ∀ name ∈ offered, Alpn.IsWireName name) :
    c.selection? next offered =
      c.protocols?.bind fun supported => Alpn.select supported offered := by
  cases c with
  | callback c => rfl
  | verifying c =>
    simp only [selection?, protocols?] at hsupported ⊢
    cases hprotocols : c.protocols? with
    | none => rfl
    | some supported => exact hnext.eq_select (hsupported supported hprotocols) hoffered

private theorem SecurityPolicy.makes_names_iff [Pki.KeyLibrary] {at' : Moments} {p : SecurityPolicy}
    {names : List String}
    (hnames : ∀ name ∈ names, Alpn.IsName name) {context : Context} :
    p.Makes at' (some names) context ↔
      context.protocols? = some (names.map Bytes.ofString) ∧
        p.Makes at' none (context.withProtocols none) := by
  have hsome : ∀ l, some names = some l → ∀ name ∈ l, Alpn.IsName name := by
    rintro l ⟨⟩
    exact hnames
  obtain ⟨hencode, hwire⟩ := Alpn.offered_of_isName hsome
  have hnone (encoding : List String → Except AlpnFault (List Bytes)) :
      Alpn.offered encoding none = .ok none := rfl
  cases context with
  | verifying c =>
    simp only [makes_iff, reduceCtorEq, false_and, exists_false, Context.verifying.injEq,
      verifyingContext_eq_ok_iff, hwire, Option.map_some, Except.ok.injEq, exists_eq_left',
      false_or,
      Context.protocols?, Context.withProtocols, hnone, and_true]
    constructor
    · rintro ⟨hmode, hroots, hidentity, hprotocols⟩
      exact ⟨hprotocols.symm, hmode, hroots, hidentity⟩
    · rintro ⟨hprotocols, hmode, hroots, hidentity⟩
      exact ⟨hmode, hroots, hidentity, hprotocols.symm⟩
  | callback c =>
    simp only [makes_iff, Context.callback.injEq, callbackContext_eq_ok_iff, hencode,
      Option.map_some,
      Except.ok.injEq, exists_eq_left', reduceCtorEq, false_and, exists_false, or_false,
      Context.protocols?, Context.withProtocols, hnone, and_true]
    constructor
    · rintro ⟨hflags, hany, hroots, hidentity, hprotocols⟩
      exact ⟨hprotocols.symm, hflags, hany, hroots, hidentity⟩
    · rintro ⟨hprotocols, hflags, hany, hroots, hidentity⟩
      exact ⟨hflags, hany, hroots, hidentity, hprotocols.symm⟩

end Policy

namespace Tls

open Pki Policy

/-! ## Handshakes with and without protocols -/

def Greeting.withProtocol (protocol? : Option Bytes) (greeting : Greeting) : Greeting :=
  { greeting with protocol? := protocol? }

section Greetings

variable {identity? : Option Identity} {protocols? : Option (List Bytes)} {offer : Offer}

private theorem greeting?_without_protocols :
    greeting? identity? none { offer with protocols := [] } =
      (greeting? identity? protocols? offer).map (Greeting.withProtocol none) := by
  cases identity? with
  | none => rfl
  | some identity =>
    simp only [greeting?, Option.bind_eq_bind, Option.bind_some]
    split <;> rfl

private theorem protocol?_of_greeting? {greeting : Greeting}
    (h : greeting? identity? protocols? offer = some greeting) :
    greeting.protocol? =
      protocols?.bind fun supported => Alpn.select supported offer.protocols := by
  obtain ⟨identity, -, -, rfl⟩ := greeting?_eq_some_iff.mp h
  rfl

end Greetings

namespace Session

variable {α : Type}

def unnamed (s : Session) : Session :=
  { s with greeting? := s.greeting?.map (Greeting.withProtocol none) }

private theorem await_unnamed (s : Session) :
    (s.unnamed.await : Step Session α) = s.await.map unnamed := by
  have hended : s.unnamed.inputEnded = s.inputEnded := rfl
  have hcloses : s.unnamed.endCloses = s.endCloses := rfl
  unfold await
  rw [hended, hcloses]
  split
  · rfl
  · split <;> rfl

private theorem conclude_unnamed (s : Session) : s.unnamed.conclude = s.conclude.map unnamed := by
  have hinput : s.unnamed.input = s.input := rfl
  have hadmits : s.unnamed.admits = s.admits := rfl
  unfold conclude
  rw [hinput, hadmits]
  split
  · exact await_unnamed s
  · rfl
  · split
    · rfl
    · split <;> rfl

private theorem corresponds_unnamed : Corresponds unnamed handshake handshake := by
  intro s
  have hphase : s.unnamed.phase = s.phase := rfl
  have hinput : s.unnamed.input = s.input := rfl
  have hnone : s.unnamed.greeting?.isNone = s.greeting?.isNone := by
    simp only [unnamed, Option.isNone_map]
  -- of the answer a handshake asks only whether there is one
  unfold handshake
  rw [hphase, hinput, hnone]
  split
  · rfl
  · rfl
  · exact conclude_unnamed s
  · split
    · exact await_unnamed s
    · rfl
    · rename_i rest _
      split
      · rfl
      · split
        · rfl
        · have hconclude : conclude { s.unnamed with phase := .greeted, input := rest } =
              (conclude { s with phase := .greeted, input := rest }).map unnamed :=
            conclude_unnamed { s with phase := .greeted, input := rest }
          simp only [hconclude, Step.map]

private theorem follows_unnamed : engine.Follows engine unnamed := ⟨fun _ _ => rfl, fun _ => rfl⟩

private theorem make_unnamed (here : Surroundings) (c : Context) (offer : Offer) :
    make here (c.withProtocols none) { offer with protocols := [] } =
      (make here c offer).unnamed := by
  have hanswer (answer? : Option Greeting) (h : answer? = (c.greeting? offer).map
      (Greeting.withProtocol none)) :
      { make here c offer with greeting? := answer? } = (make here c offer).unnamed := by
    rw [h]
    rfl
  cases c with
  | verifying c => exact hanswer _ greeting?_without_protocols
  | callback c => exact hanswer _ greeting?_without_protocols

private theorem wrap_unnamed (here : Surroundings) (c : Context) (offer : Offer) (t : Script) :
    (stack here).wrap (c.withProtocols none) { offer with protocols := [] } t =
      (((stack here).wrap c offer t).1, ((stack here).wrap c offer t).2.mapEngine unnamed) :=
  Stack.wrap_mapEngine follows_unnamed corresponds_unnamed (by cases c <;> rfl)
    (make_unnamed here c offer) t

/-! ## What is known after a handshake -/

structure Answers (answer? : Option Greeting) (s : Session) : Prop where
  kept : s.greeting? = answer?
  greeted : s.phase = .greeted ∨ s.phase = .established → answer?.isSome

private theorem isKept_answers (answer? : Option Greeting) : IsKept (Answers answer?) where
  bytes _ _ _ h := ⟨h.kept, h.greeted⟩
  failed h := ⟨h.kept, nofun⟩
  greeted h hanswer := ⟨h.kept, fun _ => h.kept ▸ hanswer⟩
  established h hphase _ := ⟨h.kept, fun _ => h.greeted (.inl hphase)⟩

private theorem protocol?_of_wrap {here : Surroundings} {c : Context} {offer : Offer} {t : Script}
    {channel : Channel Session} (h : (stack here).wrap c offer t = (none, channel)) :
    ∃ facts, channel.facts? (stack here) = some facts ∧
      facts.protocol? =
        c.protocols?.bind fun supported => Alpn.select supported offer.protocols := by
  -- the attempt that completed the handshake shows that there is an answer, and the engine keeps it
  have hkeeps := isKept_answers (c.greeting? offer)
  have hfirst : (make here c offer).Answers (c.greeting? offer) := ⟨rfl, by simp [make]⟩
  obtain ⟨emitted, e, hd, he⟩ := Stack.exists_done_of_wrap h
  have hdone : e.handshake.next.Answers (c.greeting? offer) :=
    keeps_of_driven hkeeps hfirst hd.handshake
  obtain ⟨greeting, hgreeting⟩ := Option.isSome_iff_exists.mp <|
    hdone.greeted (.inr (handshake_established he))
  have hmediated := Stack.wrap_mediated (stack here) c offer t
  rw [h] at hmediated
  obtain ⟨last, emitted', hlast, hd', -⟩ := hmediated.output_le_emitted
  have hkept : last.greeting? = some greeting :=
    (keeps_of_driven hkeeps hfirst hd').kept.trans hgreeting
  refine ⟨(stack here).facts last, ?_, ?_⟩
  · rw [Channel.facts?, hlast, Option.map_some]
  · show last.greeting?.bind Greeting.protocol? = _
    rw [hkept, Option.bind_some]
    exact protocol?_of_greeting? hgreeting

/-! ## Engines that select from encoded lists -/

/-- The engines of a server whose verifying engines have `next` select from the encoded lists. -/
def selectingStack (next : Bytes → Bytes → Option Bytes) (here : Surroundings) : Stack Session :=
  { stack here with
    start := fun c offer =>
      { make here c offer with
        greeting? := (c.greeting? offer).map
          (Greeting.withProtocol (c.selection? next offer.protocols)) } }

private theorem selectingStack_start {next : Bytes → Bytes → Option Bytes}
    (hnext : Alpn.SelectsNext next)
    {here : Surroundings} {c : Context} {offer : Offer}
    (hsupported : ∀ supported, c.protocols? = some supported →
      ∀ name ∈ supported, Alpn.IsWireName name)
    (hoffered : ∀ name ∈ offer.protocols, Alpn.IsWireName name) :
    (selectingStack next here).start c offer = (stack here).start c offer := by
  have hanswer : (c.greeting? offer).map
      (Greeting.withProtocol (c.selection? next offer.protocols)) = c.greeting? offer := by
    rw [Context.selection?_eq hnext hsupported hoffered]
    cases hgreeting : c.greeting? offer with
    | none => rfl
    | some greeting =>
      rw [Option.map_some, ← protocol?_of_greeting? hgreeting]
      rfl
  simp only [selectingStack, hanswer]
  rfl

private theorem wrap_selectingStack {next : Bytes → Bytes → Option Bytes}
    (hnext : Alpn.SelectsNext next)
    {here : Surroundings} {c : Context} {offer : Offer}
    (hsupported : ∀ supported, c.protocols? = some supported →
      ∀ name ∈ supported, Alpn.IsWireName name)
    (hoffered : ∀ name ∈ offer.protocols, Alpn.IsWireName name) (t : Script) :
    (selectingStack next here).wrap c offer t = (stack here).wrap c offer t := by
  have hengine : (selectingStack next here).engine = (stack here).engine := rfl
  exact Stack.wrap_congr hengine (selectingStack_start hnext hsupported hoffered) t

private theorem wrap_congr_protocols (here : Surroundings) (c : Context) {offer : Offer}
    {offered : List Bytes} (h : ∀ name, name ∈ offered ↔ name ∈ offer.protocols) (t : Script) :
    (stack here).wrap c { offer with protocols := offered } t = (stack here).wrap c offer t := by
  have hstart : (stack here).start c { offer with protocols := offered } =
      (stack here).start c offer := by
    have hanswer : c.greeting? { offer with protocols := offered } = c.greeting? offer := by
      simp only [Context.greeting?, Tls.greeting?, Alpn.select_congr h]
    simp only [stack, make, hanswer]
    rfl
  exact Stack.wrap_congr rfl hstart t

end Session

/-- The contexts that can be made without protocols are those that can be made with names, and they
have the names then. What is selected is the first of the names that the client offers, something is
selected if any is offered, and the order of the offers and repetitions among them make no
difference. With contexts of either kind a handshake comes to the same as without protocols; once it
is complete, what has been selected is known, and it is the same whether the engine has a callback
or selects from the encoded lists. -/
theorem selects_by_preference [KeyLibrary] (names : List String)
    (hnames : ∀ name ∈ names, Alpn.IsName name) (next : Bytes → Bytes → Option Bytes)
    (hnext : Alpn.SelectsNext next) (here : Surroundings) (at' : Moments) (p : SecurityPolicy) :
    let supported := names.map Bytes.ofString
    let wrap := (Session.selectingStack next here).wrap
    (∀ context, p.Makes at' (some names) context ↔
      context.protocols? = some supported ∧ p.Makes at' none (context.withProtocols none)) ∧
    (∀ offered,
      ((∃ name, Alpn.select supported offered = some name) ↔ ∃ name ∈ supported, name ∈ offered) ∧
      (∀ name, Alpn.select supported offered = some name ↔
        Alpn.IsFirstShared supported offered name) ∧
      ∀ offered', (∀ name, name ∈ offered' ↔ name ∈ offered) →
        Alpn.select supported offered' = Alpn.select supported offered) ∧
    ∀ context, p.Makes at' (some names) context →
      ∀ offer : Offer, (∀ name ∈ offer.protocols, Alpn.IsWireName name) →
        context.selection? next offer.protocols = Alpn.select supported offer.protocols ∧
        ∀ t,
          (wrap context offer t).1 =
            (wrap (context.withProtocols none) { offer with protocols := [] } t).1 ∧
          (∀ channel, wrap context offer t = (none, channel) →
            ∃ facts, channel.facts? (Session.selectingStack next here) = some facts ∧
              facts.protocol? = Alpn.select supported offer.protocols) ∧
          ∀ offered, (∀ name, name ∈ offered ↔ name ∈ offer.protocols) →
            wrap context { offer with protocols := offered } t = wrap context offer t := by
  intro supported wrap
  have hwire : ∀ name ∈ supported, Alpn.IsWireName name :=
    List.forall_mem_map.mpr fun name hname => (hnames name hname).isWireName
  refine ⟨fun context => SecurityPolicy.makes_names_iff hnames, ?_, ?_⟩
  · intro offered
    exact ⟨Alpn.exists_select_iff, fun name => Alpn.select_eq_some_iff,
      fun offered' => Alpn.select_congr⟩
  · -- everything is shown of the engines that select as the callback does, and carried over
    intro context hcontext offer hoffered
    obtain ⟨hprotocols, -⟩ := (SecurityPolicy.makes_names_iff hnames).mp hcontext
    have hsupported : ∀ l, context.protocols? = some l → ∀ name ∈ l, Alpn.IsWireName name := by
      intro l hl
      cases hprotocols.symm.trans hl
      exact hwire
    have hown (offer : Offer) (h : ∀ name ∈ offer.protocols, Alpn.IsWireName name) (t : Script) :
        wrap context offer t = (Session.stack here).wrap context offer t :=
      Session.wrap_selectingStack hnext hsupported h t
    have hunnamed (t : Script) :
        wrap (context.withProtocols none) { offer with protocols := [] } t =
        (Session.stack here).wrap (context.withProtocols none) { offer with protocols := [] } t :=
      Session.wrap_selectingStack hnext (by cases context <;> nofun) (by nofun) t
    refine ⟨?_, fun t => ⟨?_, fun channel hwrap => ?_, fun offered hmembers => ?_⟩⟩
    · rw [Context.selection?_eq hnext hsupported hoffered, hprotocols, Option.bind_some]
    · rw [hunnamed, Session.wrap_unnamed, hown offer hoffered]
    · rw [hown offer hoffered] at hwrap
      obtain ⟨facts, hfacts, hprotocol⟩ := Session.protocol?_of_wrap hwrap
      rw [hprotocols, Option.bind_some] at hprotocol
      exact ⟨facts, hfacts, hprotocol⟩
    · have hoffered' : ∀ name ∈ offered, Alpn.IsWireName name := fun name hname =>
        hoffered name ((hmembers name).mp hname)
      rw [hown { offer with protocols := offered } hoffered', hown offer hoffered]
      exact Session.wrap_congr_protocols here context hmembers t

local instance protocolKeys : KeyLibrary := .standard

/-- A server that prefers the newer protocol, and a client that names it last. -/
theorem selects_by_preference_reversed :
    let names := ["h2", "http/1.1"]
    let here : Surroundings := { verdicts := fun _ _ _ => [] }
    let files := Sample.files Sample.once.certFile Sample.once.keyFile
    let stack := Session.selectingStack Alpn.nextProtocol here
    let context := Context.verifying ⟨.never, .nothing,
      some ⟨Sample.onceLeaf, [], Sample.once.key⟩, some (names.map Bytes.ofString)⟩
    let offer : Offer := { protocols := [Bytes.ofString "http/1.1", Bytes.ofString "h2"] }
    (∀ name ∈ names, Alpn.IsName name) ∧ Alpn.SelectsNext Alpn.nextProtocol ∧
      SecurityPolicy.ownPolicy.Makes (.at files) (some names) context ∧
      (∀ name ∈ offer.protocols, Alpn.IsWireName name) ∧
      ∃ channel facts, stack.wrap context offer
          { items := [.data (Record.hello ++ Record.finished)] } = (none, channel) ∧
        channel.facts? stack = some facts ∧ facts.protocol? = some (Bytes.ofString "h2") := by
  intro names here files stack context offer
  have hnames : ∀ name ∈ names, Alpn.IsName name := by decide
  have hsome : ∀ l, some names = some l → ∀ name ∈ l, Alpn.IsName name := by
    rintro l ⟨⟩
    exact hnames
  have hmakes : SecurityPolicy.ownPolicy.Makes (.at files) (some names) context :=
    .verifying (SecurityPolicy.verifyingContext_once (Sample.files_read_cert _ _)
      (Sample.files_read_key _ _) (Alpn.offered_of_isName hsome).2)
  have hoffered : ∀ name ∈ offer.protocols, Alpn.IsWireName name := by decide
  obtain ⟨-, -, hwrap⟩ := selects_by_preference names hnames Alpn.nextProtocol
    Alpn.selectsNext_nextProtocol here (.at files) SecurityPolicy.ownPolicy
  obtain ⟨-, hcompletes⟩ := hwrap context hmakes offer hoffered
  let t : Script := { items := [.data (Record.hello ++ Record.finished)] }
  have hnone : (stack.wrap context offer t).1 = none := by decide +kernel
  obtain ⟨facts, hfacts, hprotocol⟩ := (hcompletes t).2.1 _ (Prod.ext hnone rfl)
  exact ⟨hnames, Alpn.selectsNext_nextProtocol, hmakes, hoffered, _, facts, Prod.ext hnone rfl,
    hfacts, hprotocol⟩

end Tls

end TlsGate
