import TlsGate.Proofs.Http.Serving

/-!
Streams that feed a handler an input. Whatever the pieces in which such a stream gives its input,
and whatever it does to what it takes, serving it is compared with serving a plain transport of
which the whole input lies in the buffer already: the application is called alike, and the same is
sent.
-/

set_option autoImplicit false
set_option relaxedAutoImplicit false

namespace TlsGate

variable {σ σ' τ : Type}

/-- A stream feeds inputs, beside a script that has nothing to give: it gives the input in pieces
and then ends, and it takes data as the script does. The relation says what is still to come. -/
structure ByteStream.Feeds (io : ByteStream σ) (G : Bytes → σ → Script → Prop) : Prop where
  takes (m : Bytes) : io.SendAlike Script.stream (G m)
  idle {m : Bytes} {s : σ} {t : Script} : G m s t → t.items = []
  gives {m : Bytes} {s : σ} {t : Script} : G m s t → m ≠ [] → ∃ data left s',
    io.receive Http.receiveSize s = (.ok data, s') ∧ data ≠ [] ∧ data ++ left = m ∧ G left s' t
  ends {s : σ} {t : Script} : G [] s t → ∃ s',
    io.receive Http.receiveSize s = (.error .ended, s') ∧
      G [] s' (Script.stream.receive Http.receiveSize t).2

namespace Http

theorem Run.Agrees.mono {R R' : σ → σ' → Prop} {run : Run σ τ} {run' : Run σ' τ}
    (h : run.Agrees R run') (hR : ∀ s s', R s s' → R' s s') : run.Agrees R' run' :=
  ⟨h.conversation, h.outcome, h.application, hR _ _ h.stream⟩

private theorem Run.Agrees.trans_eq {R : σ → σ' → Prop} {run : Run σ τ} {run' run'' : Run σ' τ}
    (h : run.Agrees R run') (h' : run'.Agrees Eq run'') : run.Agrees R run'' :=
  ⟨h.conversation.trans h'.conversation, h.outcome.trans h'.outcome,
    h.application.trans h'.application, h'.stream ▸ h.stream⟩

variable {app : Application τ} {limit : Int} {steps more : Nat} {p p' : Progress} {i i' : Inbox}
variable {a : τ}

/-! ## Steps that look alike -/

section Alike

variable {io : ByteStream σ} {io' : ByteStream σ'} {R S : σ → σ' → Prop} {s : σ} {s' : σ'}

private theorem serve_refused_agrees (hio : io.SendAlike io' R) {f f' : Fault} {q q' : Progress}
    (hread : readOn limit p i = .refused f q) (hread' : readOn limit p' i' = .refused f' q')
    (hf : f.status = f'.status) (hq : q.peer = q'.peer) (hs : R s s') :
    (serve app limit io (steps + 1) p i s a).Agrees R
      (serve app limit io' (more + 1) p' i' s' a) := by
  rw [serve_of_refused hread, serve_of_refused hread', hf, hq]
  refine Run.Agrees.after ?_ rfl
  cases sendReply_parallel hio q'.peer { status := f'.status } hs a with
  | ends _ _ hk hk' _ h =>
    rw [hk, hk']
    exact h
  | goesOn _ t t' hk hk' ht =>
    rw [hk, hk']
    have h : Run.Agrees R ⟨[], some (.ok ()), t, a⟩ ⟨[], some (.ok ()), t', a⟩ :=
      ⟨rfl, rfl, rfl, ht⟩
    exact h.after rfl

private theorem serve_request_agrees (hio : io.SendAlike io' R) (hRS : ∀ t t', R t t' → S t t')
    {head : Head} {body : Bytes} {j j' : Inbox}
    (hread : readOn limit p i = .request head body j)
    (hread' : readOn limit p' i' = .request head body j') (hs : R s s')
    (hended : (serve app limit io (steps + 1) p i s a).outcome ≠ none)
    (hended' : (serve app limit io' (more + 1) p' i' s' a).outcome ≠ none)
    (hnext : ∀ {t : σ} {t' : σ'} {b : τ}, R t t' →
      (serve app limit io steps .head j t b).outcome ≠ none →
      (serve app limit io' more .head j' t' b).outcome ≠ none →
      (serve app limit io steps .head j t b).Agrees S
        (serve app limit io' more .head j' t' b)) :
    (serve app limit io (steps + 1) p i s a).Agrees S
      (serve app limit io' (more + 1) p' i' s' a) := by
  rw [serve_of_request hread] at hended ⊢
  rw [serve_of_request hread'] at hended' ⊢
  refine Run.Agrees.after ?_ rfl
  cases deliver_parallel hio head (head.request body) (app.answer (head.request body) a).1 hs
    (app.answer (head.request body) a).2 with
  | ends _ _ hk hk' _ h =>
    rw [hk, hk']
    exact h.mono hRS
  | goesOn _ _ _ hk hk' ht =>
    rw [hk] at hended ⊢
    rw [hk'] at hended' ⊢
    exact Run.Agrees.after (hnext ht hended hended') rfl

end Alike

private theorem serve_same {io : ByteStream σ} {s : σ}
    (h : (readOn limit p i).Same (readOn limit p' i')) :
    (serve app limit io steps p i s a).Agrees Eq (serve app limit io steps p' i' s a) := by
  have hrefl (run : Run σ τ) : run.Agrees Eq run := ⟨rfl, rfl, rfl, rfl⟩
  induction steps generalizing p p' i i' s a with
  | zero => exact hrefl _
  | succ steps ih =>
    generalize hread : readOn limit p i = r at h
    generalize hread' : readOn limit p' i' = r' at h
    cases h with
    | waiting hp =>
      rw [serve_of_waiting hread, serve_of_waiting hread']
      split
      · exact Run.Agrees.after (ih (readOn_same hp _)) rfl
      · exact Run.Agrees.after (ih (readOn_same hp _)) rfl
      · exact hrefl _
    | request =>
      rw [serve_of_request hread, serve_of_request hread']
      exact hrefl _
    | finished =>
      rw [serve_of_finished hread, serve_of_finished hread']
      exact hrefl _
    | refused hf hp => exact serve_refused_agrees (sendAlike_refl io) hread hread' hf hp rfl

/-! ## Serving what is fed -/

theorem serve_of_received {io : ByteStream σ} {q : Progress} {j : Inbox} {s s' : σ} {data : Bytes}
    (hread : readOn limit p i = .waiting q j) (hreceive : io.receive receiveSize s = (.ok data, s'))
    (hdata : data ≠ []) (app : Application τ) (steps : Nat) (a : τ) :
    serve app limit io (steps + 1) p i s a =
      (serve app limit io steps q ⟨j.buffer ++ data, false⟩ s' a).after [.received data] := by
  have hempty : data.isEmpty = false := List.isEmpty_eq_false_iff.2 hdata
  rw [serve_of_waiting hread, hreceive]
  simp only [hempty]

section Feeds

variable {io : ByteStream σ} {G : Bytes → σ → Script → Prop} (hio : io.Feeds G)
variable {m : Bytes} {s : σ} {t : Script}
include hio

private theorem serve_of_given {q : Progress} {j : Inbox} (hs : G m s t) (hm : m ≠ [])
    (hread : readOn limit p i = .waiting q j) (app : Application τ) (steps : Nat) (a : τ) :
    ∃ data left s', data ++ left = m ∧ data ≠ [] ∧ G left s' t ∧
      serve app limit io (steps + 1) p i s a =
        (serve app limit io steps q ⟨j.buffer ++ data, false⟩ s' a).after [.received data] := by
  obtain ⟨data, left, s', hreceive, hdata, hleft, hs'⟩ := hio.gives hs hm
  exact ⟨data, left, s', hleft, hdata, hs', serve_of_received hread hreceive hdata app steps a⟩

private theorem serve_of_ended {q : Progress} {j : Inbox} (hs : G [] s t)
    (hread : readOn limit p i = .waiting q j) (app : Application τ) (steps : Nat) (a : τ) :
    ∃ s', G [] s' (Script.stream.receive receiveSize t).2 ∧
      serve app limit io (steps + 1) p i s a =
        (serve app limit io steps q { j with closed := true } s' a).after
          [.receiveFailed .ended] := by
  obtain ⟨s', hreceive, hs'⟩ := hio.ends hs
  refine ⟨s', hs', ?_⟩
  rw [serve_of_waiting hread, hreceive]

private theorem serve_exhausted (hs : G [] s t)
    (hended : (serve app limit io steps p i s a).outcome ≠ none)
    (hended' : (serve app limit Script.stream more p i t a).outcome ≠ none) :
    (serve app limit io steps p i s a).Agrees (fun s t => ∃ m, G m s t)
      (serve app limit Script.stream more p i t a) := by
  induction steps generalizing more p i s t a with
  | zero => exact absurd rfl hended
  | succ steps ih =>
    cases more with
    | zero => exact absurd rfl hended'
    | succ more =>
      cases hread : readOn limit p i with
      | waiting q j =>
        obtain ⟨s', hs', hrun⟩ := serve_of_ended hio hs hread app steps a
        have hreceive : Script.stream.receive receiveSize t =
            (.error .ended, (Script.stream.receive receiveSize t).2) := by
          simp only [Script.stream, Script.receive, hio.idle hs]
        have hrun' : serve app limit Script.stream (more + 1) p i t a =
            (serve app limit Script.stream more q { j with closed := true }
              (Script.stream.receive receiveSize t).2 a).after [.receiveFailed .ended] := by
          rw [serve_of_waiting hread, hreceive]
        rw [hrun] at hended ⊢
        rw [hrun'] at hended' ⊢
        exact Run.Agrees.after (ih hs' hended hended') rfl
      | finished =>
        rw [serve_of_finished hread, serve_of_finished hread]
        exact ⟨rfl, rfl, rfl, [], hs⟩
      | refused f q =>
        exact (serve_refused_agrees (hio.takes []) hread hread rfl rfl hs).mono
          fun _ _ h => ⟨[], h⟩
      | request head body j =>
        refine serve_request_agrees (hio.takes []) (fun _ _ h => ⟨[], h⟩) hread hread hs hended
          hended' ?_
        intro s' t' b hs' he he'
        exact ih hs' he he'

theorem serve_fed (hs : G m s t) (hopen : i.closed = false)
    (hfit : p.place.Fits (i.buffer ++ m))
    (hended : (serve app limit io steps p i s a).outcome ≠ none)
    (hended' : (serve app limit Script.stream more p (i.extend m) t a).outcome ≠ none) :
    (serve app limit io steps p i s a).Agrees (fun s t => ∃ m, G m s t)
      (serve app limit Script.stream more p (i.extend m) t a) := by
  -- on the steps of the run that is fed; the other run has read more whenever this one waits
  induction steps generalizing more m p i s t a with
  | zero => exact absurd rfl hended
  | succ steps ih =>
    cases more with
    | zero => exact absurd rfl hended'
    | succ more =>
      by_cases hm : m = []
      · subst hm
        have hi : i.extend [] = i := by simp [Inbox.extend]
        rw [hi] at hended' ⊢
        exact serve_exhausted hio hs hended hended'
      · have hext := readOn_extends limit p hm hopen hfit
        generalize hread : readOn limit p i = r at hext
        generalize hread' : readOn limit p (i.extend m) = r' at hext
        cases hext with
        | @waiting q j _ hopen' hfit' hsame =>
          subst hread'
          -- the gathered run may as well read on from where this one waits
          have hjoined : Run.Agrees Eq
              (serve app limit Script.stream (more + 1) q (j.extend m) t a)
              (serve app limit Script.stream (more + 1) p (i.extend m) t a) := serve_same hsame
          have hended'' := hjoined.outcome ▸ hended'
          obtain ⟨data, left, s', hleft, -, hs', hrun⟩ :=
            serve_of_given hio hs hm hread app steps a
          rw [hrun] at hended ⊢
          have hi : Inbox.extend ⟨j.buffer ++ data, false⟩ left = j.extend m := by
            simp [Inbox.extend, hopen', ← hleft]
          rw [← hi] at hended'' hjoined
          have hgathered := ih hs' rfl (by rwa [List.append_assoc, hleft]) hended hended''
          have hsilent : [Event.received data].filter Event.isOutward =
              ([] : List Event).filter Event.isOutward := rfl
          exact (hgathered.after hsilent).trans_eq hjoined
        | request hopen' hfit' =>
          refine serve_request_agrees (hio.takes m) (fun _ _ h => ⟨m, h⟩) hread hread' hs hended
            hended' ?_
          intro s' t' b hs' he he'
          exact ih hs' hopen' hfit' he he'
        | refused hf hp =>
          exact (serve_refused_agrees (hio.takes m) hread hread' hf hp hs).mono
            fun _ _ h => ⟨m, h⟩

theorem serve_fed_ends (hs : G m s t)
    (h : 2 * m.length + i.buffer.length + p.lack + (if i.closed then 0 else 1) < steps) :
    (serve app limit io steps p i s a).outcome ≠ none := by
  induction steps generalizing m p i s t a with
  | zero => exact absurd h (Nat.not_lt_zero _)
  | succ steps ih =>
    have hshrinks := readOn_shrinks limit p i
    cases hread : readOn limit p i with
    | waiting q j =>
      rw [hread] at hshrinks
      obtain ⟨hopen, -, hle⟩ := hshrinks
      rw [hopen, if_neg Bool.false_ne_true] at h
      by_cases hm : m = []
      · subst hm
        obtain ⟨s', hs', hrun⟩ := serve_of_ended hio hs hread app steps a
        rw [hrun, Run.outcome_after]
        refine ih hs' ?_
        simp only [if_true, List.length_nil] at h ⊢
        omega
      · obtain ⟨data, left, s', hleft, hdata, hs', hrun⟩ :=
          serve_of_given hio hs hm hread app steps a
        rw [hrun, Run.outcome_after]
        refine ih hs' ?_
        have hpos := List.length_pos_iff.2 hdata
        rw [← hleft, List.length_append] at h
        simp only [List.length_append, Bool.false_eq_true, if_false]
        omega
    | finished =>
      rw [serve_of_finished hread]
      exact Option.some_ne_none _
    | refused f q =>
      rw [serve_of_refused hread, Run.outcome_after]
      have hpar := sendReply_parallel (hio.takes m) q.peer { status := f.status } hs a
      refine hpar.outcome_ne_none ?_
      intro s' t' hs'
      exact Option.some_ne_none _
    | request head body j =>
      rw [hread] at hshrinks
      obtain ⟨hclosed, hlt⟩ := hshrinks
      rw [serve_of_request hread, Run.outcome_after]
      have hpar := deliver_parallel (hio.takes m) head (head.request body)
        (app.answer (head.request body) a).1 hs (app.answer (head.request body) a).2
      refine hpar.outcome_ne_none ?_
      intro s' t' hs'
      refine ih hs' ?_
      have hhead : Progress.head.lack = 0 := rfl
      rw [hclosed, hhead]
      omega

end Feeds

end Http

end TlsGate
