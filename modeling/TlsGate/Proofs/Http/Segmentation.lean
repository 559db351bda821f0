import TlsGate.Http.Canned
import TlsGate.Proofs.Http.Feeding
import TlsGate.Proofs.Stream.Arrival

/-!
Segmentation independence. A script that gives an input piece by piece feeds it, so serving it is
compared with serving the same input when all of it lies in the buffer; two ways of cutting an input
into pieces are then compared through that. Main statement: as long as no part of the input is too
long to wait for, the calls of the application and what is sent do not depend on the cut.
-/

set_option autoImplicit false
set_option relaxedAutoImplicit false

namespace TlsGate

namespace Script

theorem SameSends.symm {s t : Script} (h : s.SameSends t) : t.SameSends s :=
  ⟨h.sendsLeft.symm, h.sendFault.symm, h.sent.symm⟩

theorem SameSends.trans {s t u : Script} (h : s.SameSends t) (h' : t.SameSends u) :
    s.SameSends u :=
  ⟨h.sendsLeft.trans h'.sendsLeft, h.sendFault.trans h'.sendFault, h.sent.trans h'.sent⟩

def feed (s : Script) (cut : List Bytes) : Script := { s with items := cut.map .data }

private theorem receive_sameSends (most : Nat) (s : Script) :
    (stream.receive most s).2.SameSends s := by
  simp only [stream, receive]
  split <;> exact ⟨rfl, rfl, rfl⟩

structure Gives (m : Bytes) (s t : Script) : Prop where
  same : s.SameSends t
  idle : t.items = []
  arrives : s.Arrives m []

theorem feeds : stream.Feeds Gives where
  takes m := by
    rintro data s t hdata ⟨hsame, hidle, harrives⟩
    obtain ⟨hfault, hsame', hitems, hidle'⟩ :=
      sendAlike s.items t.items data s t hdata ⟨hsame, rfl, rfl⟩
    exact ⟨hfault, hsame', hidle'.trans hidle, harrives.congr hitems⟩
  idle h := h.idle
  gives := by
    rintro m s t ⟨hsame, hidle, harrives⟩ hm
    have hsize : 0 < Http.receiveSize := by decide
    obtain ⟨data, left, hresult, hdata, hflat, hleft⟩ := harrives.receive hsize hm
    have ht := (receive_sameSends Http.receiveSize s).trans hsame
    exact ⟨data, left, _, Prod.ext hresult rfl, hdata, hflat, ht, hidle, hleft⟩
  ends := by
    rintro s t ⟨hsame, hidle, harrives⟩
    have hgone (u : Script) (hu : u.items = []) :
        stream.receive Http.receiveSize u =
          (.error .ended, { u with receives := u.receives + 1 }) := by
      simp only [stream, receive, hu]
    rw [hgone t hidle]
    exact ⟨_, hgone s harrives.items_of_nil,
      ⟨hsame.sendsLeft, hsame.sendFault, hsame.sent⟩, hidle, harrives.congr rfl⟩

end Script

namespace Http

variable {τ : Type}

abbrev Run.Equals (run run' : Run Script τ) : Prop := run.Agrees Script.SameSends run'

theorem Run.Equals.trans {r₁ r₂ r₃ : Run Script τ} (h : r₁.Equals r₂) (h' : r₂.Equals r₃) :
    r₁.Equals r₃ :=
  ⟨h.conversation.trans h'.conversation, h.outcome.trans h'.outcome,
    h.application.trans h'.application, h.stream.trans h'.stream⟩

theorem Run.Equals.symm {r₁ r₂ : Run Script τ} (h : r₁.Equals r₂) : r₂.Equals r₁ :=
  ⟨h.conversation.symm, h.outcome.symm, h.application.symm, h.stream.symm⟩

/-- Serves a client that sends its input cut into pieces and then closes its side. -/
def serveCut (app : Application τ) (limit : Int) (transport : Script) (cut : List Bytes)
    (application : τ) : Run Script τ :=
  serve app limit Script.stream (2 * (transport.feed cut).size + 4) .head {} (transport.feed cut)
    application

theorem serveCut_ends (app : Application τ) (limit : Int) (transport : Script) (cut : List Bytes)
    (application : τ) : (serveCut app limit transport cut application).outcome ≠ none := by
  refine serve_ends ?_
  simp only [stepsLeft, Progress.lack, List.length_nil, Bool.false_eq_true, if_false]
  omega

theorem serve_gathered_ends (app : Application τ) (limit : Int) (transport : Script) (input : Bytes)
    (application : τ) :
    (serve app limit Script.stream (input.length + 2) .head { buffer := input }
      (transport.feed []) application).outcome ≠ none := by
  refine serve_ends ?_
  simp only [stepsLeft, Script.feed, Script.size, Progress.lack, List.map_nil, List.foldr_nil,
    Bool.false_eq_true, if_false]
  omega

theorem serveCut_equals (app : Application τ) (limit : Int) (transport : Script) {cut : List Bytes}
    (application : τ) (hcut : ∀ x ∈ cut, x ≠ []) (hfit : Place.head.Fits cut.flatten) :
    (serveCut app limit transport cut application).Equals
      (serve app limit Script.stream (cut.flatten.length + 2) .head { buffer := cut.flatten }
        (transport.feed []) application) := by
  have hgives : Script.Gives cut.flatten (transport.feed cut) (transport.feed []) :=
    ⟨⟨rfl, rfl, rfl⟩, rfl, Script.arrives_cut hcut rfl⟩
  have hfed := serve_fed Script.feeds hgives (p := .head) (i := {}) rfl hfit
    (serveCut_ends app limit transport cut application)
    (serve_gathered_ends app limit transport cut.flatten application)
  exact hfed.mono fun s t ⟨_, h⟩ => h.same

/-- The calls of the application, with whole requests, and all that is sent do not depend on how an
input is cut into pieces, as long as no head, chunk size line or trailer section of it is too long
to wait for. -/
theorem cut_irrelevant (app : Application τ) (limit : Int) (transport : Script) (application : τ)
    {cut cut' : List Bytes} (hcut : ∀ x ∈ cut, x ≠ []) (hcut' : ∀ x ∈ cut', x ≠ [])
    (hsame : cut.flatten = cut'.flatten) (hfit : Place.head.Fits cut.flatten) :
    let run := serveCut app limit transport cut application
    let run' := serveCut app limit transport cut' application
    run.outcome ≠ none ∧ run.outcome = run'.outcome ∧ run.requests = run'.requests ∧
      run.output = run'.output ∧ run.conversation = run'.conversation := by
  intro run run'
  have hrun := serveCut_equals app limit transport application hcut hfit
  have hrun' := serveCut_equals app limit transport application hcut' (hsame ▸ hfit)
  rw [← hsame] at hrun'
  have h : run.Equals run' := hrun.trans hrun'.symm
  refine ⟨serveCut_ends app limit transport cut application, h.outcome, ?_, ?_, h.conversation⟩
  · rw [Run.requests_eq, Run.requests_eq, h.conversation]
  · rw [Run.output_eq, Run.output_eq, h.conversation]

def chunkedInput : Bytes :=
  Bytes.ofString "POST /a HTTP/1.1\r\nHost: b\r\nTransfer-Encoding: chunked\r\n\r\n" ++
    Bytes.ofString "3;x\r\nabc\r\n0\r\n\r\nGET\r\n\r\n"

theorem cut_irrelevant_bytewise :
    let cut := [chunkedInput.take 70, chunkedInput.drop 70]
    let cut' := chunkedInput.map fun b => [b]
    (∀ x ∈ cut, x ≠ []) ∧ (∀ x ∈ cut', x ≠ []) ∧ cut.flatten = cut'.flatten ∧
      Place.head.Fits cut.flatten ∧
      (serveCut (canned [.echo]) 16 {} cut 0).requests =
        (serveCut (canned [.echo]) 16 {} cut' 0).requests ∧
      (serveCut (canned [.echo]) 16 {} cut 0).output =
        (serveCut (canned [.echo]) 16 {} cut' 0).output := by
  intro cut cut'
  have hcut : ∀ x ∈ cut, x ≠ [] := by decide +kernel
  have hcut' : ∀ x ∈ cut', x ≠ [] := by decide +kernel
  have hsame : cut.flatten = cut'.flatten := by decide +kernel
  have hfit : Place.head.Fits cut.flatten := Place.fits_of_length (by decide +kernel)
  obtain ⟨-, -, hrequests, houtput, -⟩ :=
    cut_irrelevant (canned [.echo]) 16 {} 0 hcut hcut' hsame hfit
  exact ⟨hcut, hcut', hsame, hfit, hrequests, houtput⟩

end Http

end TlsGate
