import TlsGate.Proofs.Stream.Arrival
import TlsGate.Proofs.Tls.Conservation

/-!
Traffic through an engine. A faithful engine gives out the data that its client has written,
whatever the pieces in which they arrive, and turns the data that it is given into bytes that the
client reads as those data, also when the client has said that it sends no more. Both kinds of
streams over such an engine then do what a stream is for: what they are asked for comes to the end
that the engine comes to, and no piece is lost or waits on the way.
-/

set_option autoImplicit false
set_option relaxedAutoImplicit false

namespace TlsGate.Tls

variable {ε α : Type}

/-! ## Faithful engines -/

/-- What is under way between a client and an engine. -/
structure Traffic where
  arriving : Bytes
  plain : Bytes
  emitted : Bytes := []
  taken : Bytes := []

def Traffic.emit (t : Traffic) (b : Bytes) : Traffic := { t with emitted := t.emitted ++ b }

/-- What attempts may come to: how engine and traffic stand before one is done, when it is done and
when it meets a closure alert, and whether it may fail. -/
structure Course (ε α : Type) where
  going : ε → Traffic → Prop
  done : α → ε → Traffic → Prop
  closed : ε → Traffic → Prop
  mayFail : Prop

/-- An attempt goes as the course says. An engine wants more only if more is arriving. -/
def Course.Admits (c : Course ε α) (t : Traffic) (step : Step ε α) : Prop :=
  match step.attempt with
  | .done a => c.done a step.next (t.emit step.emitted)
  | .wantRead => t.arriving ≠ [] ∧ c.going step.next (t.emit step.emitted)
  | .closed => c.closed step.next (t.emit step.emitted)
  | .failed _ => c.mayFail

/-- Handshakes: from an engine that greets comes one that serves, if they do not fail. -/
def greeting (greets serves : ε → Traffic → Prop) : Course ε Unit where
  going := greets
  done _ := serves
  closed _ _ := True
  mayFail := True

def receiving (serves : ε → Traffic → Prop) : Course ε Bytes where
  going := serves
  done data e t := data ≠ [] ∧
    ∃ left, t.plain = data ++ left ∧ serves e { t with plain := left }
  closed e t := t.plain = [] ∧ serves e t
  mayFail := False

def sending (serves : ε → Traffic → Prop) (whole : Bool) (data : Bytes) : Course ε Nat where
  going := serves
  done n e t := 0 < n ∧ (whole = true → n = data.length) ∧
    serves e { t with taken := t.taken ++ data.take n }
  closed _ _ := False
  mayFail := False

/-- An engine is faithful to its client: `greets` says how it stands to the traffic during the
handshake and `serves` after it, and `read` what the client reads in the bytes that it is sent. -/
structure Engine.Faithful (io : Engine ε) (greets serves : ε → Traffic → Prop) (whole : Bool)
    (read : Bytes → Bytes) : Prop where
  feedGreeting {e : ε} {t : Traffic} {b rest : Bytes} : greets e t → t.arriving = b ++ rest →
    greets (io.feed b e) { t with arriving := rest }
  feed {e : ε} {t : Traffic} {b rest : Bytes} : serves e t → t.arriving = b ++ rest →
    serves (io.feed b e) { t with arriving := rest }
  handshake {e : ε} {t : Traffic} : greets e t → (greeting greets serves).Admits t (io.handshake e)
  receive {e : ε} {t : Traffic} {size : Nat} : 0 < size → serves e t →
    (receiving serves).Admits t (io.receive size e)
  send {e : ε} {t : Traffic} {data : Bytes} : data ≠ [] → serves e t →
    (sending serves whole data).Admits t (io.send data e)
  read {e : ε} {t : Traffic} : serves e t → read t.emitted = t.taken

/-- A relation between engine and traffic is kept while the engine is fed. -/
def Engine.Keeps (io : Engine ε) (inv : ε → Traffic → Prop) : Prop :=
  ∀ {e : ε} {t : Traffic} {b rest : Bytes}, inv e t → t.arriving = b ++ rest →
    inv (io.feed b e) { t with arriving := rest }

/-! ## Engines with a transport -/

/-- An engine stands to some traffic in a relation, and its transport carries the traffic: what it
has still to give, and what it has taken after what it had taken before. -/
structure Carries (inv : ε → Traffic → Prop) (before : Bytes) (e : ε) (transport : Script)
    (outgoing : Bytes) (t : Traffic) : Prop where
  engine : inv e t
  arrives : ∃ others, transport.Arrives t.arriving others
  isOpen : transport.sendsLeft = none
  output : transport.output ++ outgoing = before ++ t.emitted

namespace Carries

variable {inv inv' : ε → Traffic → Prop} {before outgoing : Bytes} {e next : ε} {s : Script}
variable {t : Traffic}

theorem emit {b : Bytes} (h : Carries inv before e s outgoing t) (hnext : inv' next (t.emit b)) :
    Carries inv' before next s (outgoing ++ b) (t.emit b) := by
  refine ⟨hnext, h.arrives, h.isOpen, ?_⟩
  rw [← List.append_assoc, h.output, List.append_assoc]
  rfl

theorem send {piece rest : Bytes} (h : Carries inv before e s (piece ++ rest) t) :
    ∃ s', Script.send piece s = (none, s') ∧ Carries inv before e s' rest t := by
  have hsend : Script.send piece s = (none, { s with sent := piece :: s.sent }) := by
    simp only [Script.send, h.isOpen, Option.map_none]
  refine ⟨_, hsend, h.engine, ?_, h.isOpen, ?_⟩
  · obtain ⟨others, harrives⟩ := h.arrives
    exact ⟨others, harrives.congr rfl⟩
  · rw [Script.output_of_send hsend, List.append_assoc, h.output]

theorem feed {io : Engine ε} {most : Nat} (hmost : 0 < most) (hfeed : io.Keeps inv)
    (h : Carries inv before e s outgoing t) (harriving : t.arriving ≠ []) :
    ∃ b rest s', Script.receive most s = (.ok b, s') ∧
      Carries inv before (io.feed b e) s' outgoing { t with arriving := rest } := by
  obtain ⟨others, harrives⟩ := h.arrives
  obtain ⟨b, rest, hresult, -, hflat, hrest⟩ := harrives.receive hmost harriving
  obtain ⟨houtput, hleft⟩ := Script.receive_frame most s
  refine ⟨b, rest, (Script.receive most s).2, Prod.ext hresult rfl, ?_, ⟨others, hrest⟩, ?_, ?_⟩
  · exact hfeed h.engine hflat.symm
  · rw [hleft, h.isOpen]
  · rw [houtput, h.output]

end Carries

theorem Carries.imp {inv inv' : ε → Traffic → Prop} {before outgoing : Bytes} {e : ε} {s : Script}
    {t t' : Traffic} (h : Carries inv before e s outgoing t) (hinv : inv' e t')
    (harriving : t'.arriving = t.arriving) (hemitted : t'.emitted = t.emitted) :
    Carries inv' before e s outgoing t' := by
  refine ⟨hinv, ?_, h.isOpen, ?_⟩
  · rw [harriving]
    exact h.arrives
  · rw [hemitted]
    exact h.output

/-- An engine with a transport as a stream leaves it: nothing is outgoing, the transport has not
ended, and it carries some traffic. -/
structure Settled (before : Bytes) (e : ε) (s : Script) (outgoing : Bytes) (ended : Bool)
    (inv : ε → Traffic → Prop) (t : Traffic) : Prop where
  carries : Carries inv before e s [] t
  outgoing : outgoing = []
  running : ended = false

/-- What an operation of a stream comes to, if attempts go as a course says; `holds` says how the
stream stands then. The data under way are as before, but for what the attempt did with them. -/
inductive Course.Outcome (c : Course ε α) (onClosed : StreamFault) (t : Traffic)
    (holds : (ε → Traffic → Prop) → Traffic → Prop) : Except StreamFault α → Prop
  | done (a : α) (t' : Traffic) (plain : t'.plain = t.plain) (taken : t'.taken = t.taken)
      (h : holds (c.done a) t') : Outcome c onClosed t holds (.ok a)
  | closed (t' : Traffic) (plain : t'.plain = t.plain) (taken : t'.taken = t.taken)
      (h : holds c.closed t') : Outcome c onClosed t holds (.error onClosed)
  | failed (h : c.mayFail) (fault : StreamFault) : Outcome c onClosed t holds (.error fault)

private theorem Course.Outcome.of_same {c : Course ε α} {onClosed : StreamFault} {t t' : Traffic}
    {holds : (ε → Traffic → Prop) → Traffic → Prop} {result : Except StreamFault α}
    (h : c.Outcome onClosed t' holds result) (hplain : t'.plain = t.plain)
    (htaken : t'.taken = t.taken) : c.Outcome onClosed t holds result := by
  cases h with
  | done a t'' hp ht h => exact .done a t'' (hp.trans hplain) (ht.trans htaken) h
  | closed t'' hp ht h => exact .closed t'' (hp.trans hplain) (ht.trans htaken) h
  | failed h => exact .failed h _

theorem Course.Outcome.received {serves : ε → Traffic → Prop} {before outgoing : Bytes} {e : ε}
    {s : Script} {ended : Bool} {t : Traffic} {result : Except StreamFault Bytes}
    (h : (receiving serves).Outcome .ended t (Settled before e s outgoing ended) result) :
    ∃ t', t'.taken = t.taken ∧ Settled before e s outgoing ended serves t' ∧
      ((∃ data, result = .ok data ∧ data ≠ [] ∧ data ++ t'.plain = t.plain) ∨
        result = .error .ended ∧ t.plain = [] ∧ t'.plain = []) := by
  cases h with
  | done data t' hplain htaken hsettled =>
    obtain ⟨hdata, left, hleft, hserves⟩ := hsettled.carries.engine
    exact ⟨{ t' with plain := left }, htaken,
      ⟨hsettled.carries.imp hserves rfl rfl, hsettled.outgoing, hsettled.running⟩,
      .inl ⟨data, rfl, hdata, hleft.symm.trans hplain⟩⟩
  | closed t' hplain htaken hsettled =>
    obtain ⟨hnil, hserves⟩ := hsettled.carries.engine
    exact ⟨t', htaken,
      ⟨hsettled.carries.imp hserves rfl rfl, hsettled.outgoing, hsettled.running⟩,
      .inr ⟨rfl, hplain.symm.trans hnil, hnil⟩⟩
  | failed hfail => exact hfail.elim

theorem Course.Outcome.sent {serves : ε → Traffic → Prop} {whole : Bool} {data : Bytes}
    {before outgoing : Bytes} {e : ε} {s : Script} {ended : Bool} {t : Traffic}
    {onClosed : StreamFault} {result : Except StreamFault Nat}
    (h : (sending serves whole data).Outcome onClosed t (Settled before e s outgoing ended)
      result) :
    ∃ n t', result = .ok n ∧ 0 < n ∧ (whole = true → n = data.length) ∧ t'.plain = t.plain ∧
      t'.taken = t.taken ++ data.take n ∧ Settled before e s outgoing ended serves t' := by
  cases h with
  | done n t' hplain htaken hsettled =>
    obtain ⟨hpos, hwhole, hserves⟩ := hsettled.carries.engine
    refine ⟨n, { t' with taken := t'.taken ++ data.take n }, rfl, hpos, hwhole, hplain, ?_,
      hsettled.carries.imp hserves rfl rfl, hsettled.outgoing, hsettled.running⟩
    rw [htaken]
  | closed t' hplain htaken hsettled => exact hsettled.carries.engine.elim
  | failed hfail => exact hfail.elim

def Course.Governs (c : Course ε α) (attempt : ε → Step ε α) : Prop :=
  ∀ {e : ε} {t : Traffic}, c.going e t → c.Admits t (attempt e)

section Governs

variable {c : Course ε α} {attempt : ε → Step ε α} (h : c.Governs attempt) {e : ε} {t : Traffic}
  (he : c.going e t)
include h he

theorem Course.Governs.done {a : α} (hstep : (attempt e).attempt = .done a) :
    c.done a (attempt e).next (t.emit (attempt e).emitted) := by
  have hadmits := h he
  rwa [Course.Admits, hstep] at hadmits

theorem Course.Governs.closed (hstep : (attempt e).attempt = .closed) :
    c.closed (attempt e).next (t.emit (attempt e).emitted) := by
  have hadmits := h he
  rwa [Course.Admits, hstep] at hadmits

theorem Course.Governs.wantRead (hstep : (attempt e).attempt = .wantRead) :
    t.arriving ≠ [] ∧ c.going (attempt e).next (t.emit (attempt e).emitted) := by
  have hadmits := h he
  rwa [Course.Admits, hstep] at hadmits

theorem Course.Governs.failed {fault : EngineFault} (hstep : (attempt e).attempt = .failed fault) :
    c.mayFail := by
  have hadmits := h he
  rwa [Course.Admits, hstep] at hadmits

end Governs

/-! ### The stream over a verifying engine -/

namespace Relay

abbrev Holds (s : Relay ε) (before : Bytes) (inv : ε → Traffic → Prop) (t : Traffic) : Prop :=
  Settled before s.engine s.transport s.outgoing s.ended inv t

variable {inv inv' : ε → Traffic → Prop} {before b : Bytes} {t : Traffic} {s : Relay ε} {next : ε}

theorem Holds.flush (h : s.Holds before inv t) (hnext : inv' next (t.emit b)) :
    ∃ s', Relay.flush { s with engine := next, outgoing := s.outgoing ++ b } = (none, s') ∧
      s'.Holds before inv' (t.emit b) := by
  have hcarries := h.carries.emit hnext
  rw [h.outgoing]
  by_cases hb : b = []
  · subst hb
    refine ⟨{ s with engine := next, outgoing := [] }, ?_, hcarries, rfl, h.running⟩
    simp only [Relay.flush, List.append_nil, if_true]
  · rw [← List.append_nil ([] ++ b)] at hcarries
    obtain ⟨transport, hsend, hcarries⟩ := hcarries.send
    refine ⟨{ s with engine := next, transport := transport, outgoing := [] }, ?_, hcarries, rfl,
      h.running⟩
    simp only [List.nil_append] at hsend ⊢
    simp only [Relay.flush, if_neg hb, hsend]

theorem Holds.exchange {io : Engine ε} (h : s.Holds before inv t) (hnext : inv' next (t.emit b))
    (harriving : t.arriving ≠ []) (hfeed : io.Keeps inv') :
    ∃ rest s', Relay.exchange io { s with engine := next, outgoing := s.outgoing ++ b } =
        (none, s') ∧ s'.Holds before inv' { t.emit b with arriving := rest } := by
  obtain ⟨flushed, hflush, hholds⟩ := h.flush hnext
  have hmost : 0 < most := by decide
  obtain ⟨data, rest, transport, hreceive, hcarries⟩ := hholds.carries.feed hmost hfeed harriving
  refine ⟨rest, { flushed with transport := transport, engine := io.feed data flushed.engine }, ?_,
    hcarries, hholds.outgoing, hholds.running⟩
  simp only [Relay.exchange, hflush, hreceive]

private theorem call_outcome {c : Course ε α} {io : Engine ε} {attempt : ε → Step ε α}
    (hattempt : c.Governs attempt) (hfeed : io.Keeps c.going) (onClosed : StreamFault)
    (s : Relay ε) : ∀ t : Traffic, s.Holds before c.going t →
      c.Outcome onClosed t ((call io attempt onClosed s).2.Holds before)
        (call io attempt onClosed s).1 := by
  -- the transport takes everything and gives what arrives, so flushing and exchanging never fail
  fun_induction call io attempt onClosed s with
  | case1 s step s' a hstep fault flushed hflush =>
    intro t h
    obtain ⟨next, hnext, -⟩ := h.flush (hattempt.done h.carries.engine hstep)
    cases hflush.symm.trans hnext
  | case2 s step s' a hstep flushed hflush =>
    intro t h
    obtain ⟨next, hnext, hholds⟩ := h.flush (hattempt.done h.carries.engine hstep)
    cases hflush.symm.trans hnext
    exact .done a (t.emit (attempt s.engine).emitted) rfl rfl hholds
  | case3 s step s' hstep fault flushed hflush =>
    intro t h
    obtain ⟨next, hnext, -⟩ := h.flush (hattempt.closed h.carries.engine hstep)
    cases hflush.symm.trans hnext
  | case4 s step s' hstep flushed hflush =>
    intro t h
    obtain ⟨next, hnext, hholds⟩ := h.flush (hattempt.closed h.carries.engine hstep)
    cases hflush.symm.trans hnext
    exact .closed (t.emit (attempt s.engine).emitted) rfl rfl hholds
  | case5 s step s' fault hstep =>
    intro t h
    exact .failed (hattempt.failed h.carries.engine hstep) _
  | case6 s step s' hstep hs =>
    intro t h
    rw [h.running] at hs
    cases hs
  | case7 s step s' hstep hs fault next hx =>
    intro t h
    obtain ⟨harriving, hgoing⟩ := hattempt.wantRead h.carries.engine hstep
    obtain ⟨rest, next', hnext, -⟩ := h.exchange hgoing harriving hfeed
    cases hx.symm.trans hnext
  | case8 s step s' hstep hs next hx ih =>
    intro t h
    obtain ⟨harriving, hgoing⟩ := hattempt.wantRead h.carries.engine hstep
    obtain ⟨rest, next', hnext, hholds⟩ := h.exchange hgoing harriving hfeed
    cases hx.symm.trans hnext
    exact (ih _ hholds).of_same rfl rfl

end Relay

/-! ### The stream over an engine with a callback -/

namespace Pump

abbrev Holds (s : Pump ε) (before : Bytes) (inv : ε → Traffic → Prop) (t : Traffic) : Prop :=
  Settled before s.engine s.transport s.outgoing s.ended inv t

variable {inv inv' : ε → Traffic → Prop} {before b : Bytes} {t : Traffic} {s : Pump ε} {next : ε}

private theorem flush_carries (s : Pump ε)
    (h : Carries inv before s.engine s.transport s.outgoing t)
    (hrunning : s.ended = false) :
    (flush s).1 = none ∧ (flush s).2.Holds before inv t := by
  fun_induction flush s with
  | case1 s hs =>
    rw [hs] at h
    exact ⟨rfl, h, hs, hrunning⟩
  | case2 s hs piece s' fault transport hsend =>
    rw [← List.take_append_drop most s.outgoing] at h
    obtain ⟨next, hnext, -⟩ := h.send
    cases hsend.symm.trans hnext
  | case3 s hs piece s' transport hsend ih =>
    rw [← List.take_append_drop most s.outgoing] at h
    obtain ⟨next, hnext, hcarries⟩ := h.send
    cases hsend.symm.trans hnext
    exact ih hcarries hrunning

theorem Holds.flush {attempt : ε → Step ε α} (h : s.Holds before inv t)
    (hnext : inv' (attempt s.engine).next (t.emit (attempt s.engine).emitted)) :
    ∃ s', Pump.flush (s.attempted attempt) = (none, s') ∧
      s'.Holds before inv' (t.emit (attempt s.engine).emitted) := by
  have hcarries := h.carries.emit hnext
  rw [← h.outgoing] at hcarries
  obtain ⟨hnone, hholds⟩ := flush_carries (s.attempted attempt) hcarries h.running
  exact ⟨_, Prod.ext hnone rfl, hholds⟩

theorem Holds.feed {io : Engine ε} (h : s.Holds before inv t) (harriving : t.arriving ≠ [])
    (hfeed : io.Keeps inv) :
    ∃ rest s', Pump.feed io s = (none, s') ∧ s'.Holds before inv { t with arriving := rest } := by
  have hmost : 0 < most := by decide
  obtain ⟨data, rest, transport, hreceive, hcarries⟩ := h.carries.feed hmost hfeed harriving
  refine ⟨rest, { s with
    transport := transport, engine := io.feed data s.engine
    history := .fed data :: .asked :: s.history }, ?_, hcarries, h.outgoing, h.running⟩
  simp only [Pump.feed, hreceive]

private theorem call_outcome {c : Course ε α} {io : Engine ε} {attempt : ε → Step ε α}
    (hattempt : c.Governs attempt) (hfeed : io.Keeps c.going) (s : Pump ε) :
    ∀ t : Traffic, s.Holds before c.going t →
      c.Outcome .ended t ((call io attempt s).2.Holds before) (call io attempt s).1 := by
  fun_induction call io attempt s with
  | case1 s step s' a hstep fault flushed hflush =>
    intro t h
    obtain ⟨next, hnext, -⟩ := h.flush (hattempt.done h.carries.engine hstep)
    cases hflush.symm.trans hnext
  | case2 s step s' a hstep flushed hflush =>
    intro t h
    obtain ⟨next, hnext, hholds⟩ := h.flush (hattempt.done h.carries.engine hstep)
    cases hflush.symm.trans hnext
    exact .done a (t.emit (attempt s.engine).emitted) rfl rfl hholds
  | case3 s step s' hstep fault flushed hflush =>
    intro t h
    obtain ⟨next, hnext, -⟩ := h.flush (hattempt.closed h.carries.engine hstep)
    cases hflush.symm.trans hnext
  | case4 s step s' hstep flushed hflush =>
    intro t h
    obtain ⟨next, hnext, hholds⟩ := h.flush (hattempt.closed h.carries.engine hstep)
    cases hflush.symm.trans hnext
    exact .closed (t.emit (attempt s.engine).emitted) rfl rfl hholds
  | case5 s step s' fault hstep hs =>
    intro t h
    exact .failed (hattempt.failed h.carries.engine hstep) _
  | case6 s step s' fault hstep hs =>
    intro t h
    exact .failed (hattempt.failed h.carries.engine hstep) _
  | case7 s step s' hstep hs =>
    intro t h
    rw [h.running] at hs
    cases hs
  | case8 s step s' hstep hs fault flushed hflush =>
    intro t h
    obtain ⟨-, hgoing⟩ := hattempt.wantRead h.carries.engine hstep
    obtain ⟨next, hnext, -⟩ := h.flush hgoing
    cases hflush.symm.trans hnext
  | case9 s step s' hstep hs flushed hflush fault fed hf =>
    intro t h
    obtain ⟨harriving, hgoing⟩ := hattempt.wantRead h.carries.engine hstep
    obtain ⟨next, hnext, hholds⟩ := h.flush hgoing
    cases hflush.symm.trans hnext
    obtain ⟨rest, next', hnext', -⟩ := hholds.feed harriving hfeed
    cases hf.symm.trans hnext'
  | case10 s step s' hstep hs flushed hflush fed hf ih =>
    intro t h
    obtain ⟨harriving, hgoing⟩ := hattempt.wantRead h.carries.engine hstep
    obtain ⟨next, hnext, hholds⟩ := h.flush hgoing
    cases hflush.symm.trans hnext
    obtain ⟨rest, next', hnext', hholds'⟩ := hholds.feed harriving hfeed
    cases hf.symm.trans hnext'
    exact (ih _ hholds').of_same rfl rfl

theorem send_outcome {io : Engine ε} {serves : ε → Traffic → Prop} {whole : Bool}
    (hsend : ∀ data, data ≠ [] → (sending serves whole data).Governs (io.send data))
    (hfeed : io.Keeps serves) (data : Bytes) (s : Pump ε) :
    ∀ t : Traffic, s.Holds before serves t →
      (send io data s).1 = none ∧ ∃ t', t'.plain = t.plain ∧ t'.taken = t.taken ++ data ∧
        (send io data s).2.Holds before serves t' := by
  fun_induction send io data s with
  | case1 s =>
    intro t h
    exact ⟨rfl, t, rfl, (List.append_nil _).symm, h⟩
  | case2 data s hne fault next hcall =>
    intro t h
    have houtcome := call_outcome (hsend data hne) hfeed s t h
    rw [hcall] at houtcome
    obtain ⟨n, t', hresult, -⟩ := houtcome.sent
    cases hresult
  | case3 data s hne n next hcall ih =>
    intro t h
    have houtcome := call_outcome (hsend data hne) hfeed s t h
    rw [hcall] at houtcome
    obtain ⟨n', t', hresult, hpos, -, hplain, htaken, hholds⟩ := houtcome.sent
    cases hresult
    have hmax : max n 1 = n := by omega
    obtain ⟨hnone, t'', hplain', htaken', hholds'⟩ := ih t' hholds
    refine ⟨hnone, t'', hplain'.trans hplain, ?_, hholds'⟩
    rw [htaken', htaken, hmax, List.append_assoc, List.take_append_drop]

end Pump

/-! ### Secured streams -/

namespace Channel

def Holds (c : Channel ε) (whole : Bool) (before : Bytes) (inv : ε → Traffic → Prop)
    (t : Traffic) : Prop :=
  match c with
  | clear _ => False
  | relayed s => whole = true ∧ s.Holds before inv t
  | pumped s => s.Holds before inv t

variable {io : Engine ε} {greets serves : ε → Traffic → Prop} {whole : Bool} {read : Bytes → Bytes}
variable (hio : io.Faithful greets serves whole read) {before : Bytes} {t : Traffic} {c : Channel ε}

theorem Holds.output {inv : ε → Traffic → Prop} (h : c.Holds whole before inv t) :
    c.transport.output = before ++ t.emitted ∧ ∃ e, inv e t := by
  cases c with
  | clear t => exact h.elim
  | relayed s =>
    have hcarries := h.2.carries
    exact ⟨(List.append_nil _).symm.trans hcarries.output, _, hcarries.engine⟩
  | pumped s =>
    have hcarries := h.carries
    exact ⟨(List.append_nil _).symm.trans hcarries.output, _, hcarries.engine⟩

include hio

theorem receive_outcome {size : Nat} (hsize : 0 < size) (h : c.Holds whole before serves t) :
    ∃ t', t'.taken = t.taken ∧ (c.receive io size).2.Holds whole before serves t' ∧
      ((∃ data, (c.receive io size).1 = .ok data ∧ data ≠ [] ∧ data ++ t'.plain = t.plain) ∨
        (c.receive io size).1 = .error .ended ∧ t.plain = [] ∧ t'.plain = []) := by
  have hgoverns : (receiving serves).Governs (io.receive size) := fun he => hio.receive hsize he
  have hfeed : io.Keeps serves := hio.feed
  cases c with
  | clear t => exact h.elim
  | relayed s =>
    obtain ⟨hwhole, h⟩ := h
    obtain ⟨t', htaken, hholds, hresult⟩ :=
      (Relay.call_outcome hgoverns hfeed .ended s t h).received
    exact ⟨t', htaken, ⟨hwhole, hholds⟩, hresult⟩
  | pumped s =>
    obtain ⟨t', htaken, hholds, hresult⟩ := (Pump.call_outcome hgoverns hfeed s t h).received
    exact ⟨t', htaken, hholds, hresult⟩

theorem send_outcome {data : Bytes} (hdata : data ≠ []) (h : c.Holds whole before serves t) :
    (c.send io data).1 = none ∧ ∃ t', t'.plain = t.plain ∧ t'.taken = t.taken ++ data ∧
      (c.send io data).2.Holds whole before serves t' := by
  have hgoverns (data : Bytes) (hdata : data ≠ []) :
      (sending serves whole data).Governs (io.send data) := fun he => hio.send hdata he
  have hfeed : io.Keeps serves := hio.feed
  cases c with
  | clear t => exact h.elim
  | relayed s =>
    obtain ⟨hwhole, h⟩ := h
    obtain ⟨n, t', hresult, -, hall, hplain, htaken, hholds⟩ :=
      (Relay.call_outcome (hgoverns data hdata) hfeed .badRecord s t h).sent
    rw [hall hwhole, List.take_length] at htaken
    rcases hcall : Relay.call io (io.send data) .badRecord s with ⟨result, next⟩
    rw [hcall] at hresult hholds
    subst hresult
    have hsend : (relayed s).send io data = (none, relayed next) := by
      simp only [send, Relay.send, hcall, Prod.map, id]
    rw [hsend]
    exact ⟨rfl, t', hplain, htaken, hwhole, hholds⟩
  | pumped s =>
    exact Pump.send_outcome hgoverns hfeed data s t h

end Channel

theorem Stack.wrap_holds {stack : Stack ε} {greets serves : ε → Traffic → Prop} {c : Policy.Context}
    {read : Bytes → Bytes} (hio : stack.engine.Faithful greets serves (!c.hasCallback) read)
    {offer : Offer} {s : Script} {t : Traffic} (hopen : s.sendsLeft = none)
    {others : List ScriptItem} (harrives : s.Arrives t.arriving others)
    (hemitted : t.emitted = []) (hstart : greets (stack.start c offer) t) {channel : Channel ε}
    (hwrap : stack.wrap c offer s = (none, channel)) :
    ∃ t', t'.plain = t.plain ∧ t'.taken = t.taken ∧
      channel.Holds (!c.hasCallback) s.output serves t' := by
  have hgoverns : (greeting greets serves).Governs stack.engine.handshake := hio.handshake
  have hfeed : stack.engine.Keeps greets := hio.feedGreeting
  have hcarries : Carries greets s.output (stack.start c offer) s [] t :=
    ⟨hstart, ⟨others, harrives⟩, hopen, by rw [hemitted]⟩
  cases c with
  | verifying c =>
    have houtcome := Relay.call_outcome hgoverns hfeed .badRecord
      { engine := stack.start (.verifying c) offer, transport := s } t ⟨hcarries, rfl, rfl⟩
    simp only [wrap, Relay.handshake] at hwrap
    split at hwrap <;> rename_i hcall <;> rw [hcall] at houtcome
    · cases hwrap
      cases houtcome with
      | done a t' hplain htaken hsettled => exact ⟨t', hplain, htaken, rfl, hsettled⟩
    · cases hwrap
  | callback c =>
    have houtcome := Pump.call_outcome hgoverns hfeed
      { engine := stack.start (.callback c) offer, transport := s } t ⟨hcarries, rfl, rfl⟩
    simp only [wrap, Pump.handshake] at hwrap
    split at hwrap <;> rename_i hcall <;> rw [hcall] at houtcome
    · cases hwrap
      cases houtcome with
      | done a t' hplain htaken hsettled => exact ⟨t', hplain, htaken, hsettled⟩
    · cases hwrap
    · cases hwrap

end TlsGate.Tls
