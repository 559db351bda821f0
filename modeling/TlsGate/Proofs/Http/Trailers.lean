import TlsGate.Proofs.Http.Feeding
import TlsGate.Proofs.Http.Written

/-!
Trailer sections that arrive in pieces. While the end of a trailer section is missing, what there is
of it waits in the buffer, and if that is too much, the request is refused; a section that has its
end is passed, however long it is. So whether a request with a long trailer section reaches the
application depends on the pieces in which it arrives, even if each of its lines is short.
-/

set_option autoImplicit false
set_option relaxedAutoImplicit false

namespace TlsGate.Http

variable {σ τ : Type}

def trailerLines (fs : List Field) : Bytes := fs.flatMap fun f => fieldText f ++ [13, 10]

theorem trailerLines_append (fs gs : List Field) :
    trailerLines (fs ++ gs) = trailerLines fs ++ trailerLines gs := List.flatMap_append

theorem trailerLines_ne_nil {fs : List Field} (h : fs ≠ []) : trailerLines fs ≠ [] := by
  obtain ⟨f, others, rfl⟩ := List.exists_cons_of_ne_nil h
  simp [trailerLines]

structure IsTrailer (fs : List Field) : Prop where
  names : ∀ f ∈ fs, isToken f.1 = true
  values : ∀ f ∈ fs, isFieldValue f.2 = true
  unframed : (fs.map lowerName).filter (isFramingName ·.1) = []

namespace IsTrailer

theorem left {fs gs : List Field} (h : IsTrailer (fs ++ gs)) : IsTrailer fs where
  names f hf := h.names f (List.mem_append_left _ hf)
  values f hf := h.values f (List.mem_append_left _ hf)
  unframed := by
    have hunframed := h.unframed
    rw [List.map_append, List.filter_append] at hunframed
    exact (List.append_eq_nil_iff.1 hunframed).1

variable {fs : List Field} (h : IsTrailer fs)
include h

theorem lines : ∀ line ∈ fs.map fieldText, 10 ∉ line ∧ line ≠ [] := by
  intro line hline
  obtain ⟨f, hf, rfl⟩ := List.mem_map.1 hline
  exact fieldText_line (h.names f hf) (h.values f hf)

private theorem takeLines_unfinished : takeLines (trailerLines fs) = none := by
  have hlines := h.lines
  clear h
  induction fs with
  | nil =>
    rw [trailerLines, List.flatMap_nil, takeLines]
    rfl
  | cons f fs ih =>
    obtain ⟨hfeed, hne⟩ := hlines (fieldText f) List.mem_cons_self
    have hcons : trailerLines (f :: fs) = fieldText f ++ 13 :: 10 :: trailerLines fs := by
      simp [trailerLines]
    have hnone : takeLines (trailerLines fs) = none :=
      ih fun line hline => hlines line (List.mem_cons_of_mem _ hline)
    rw [hcons, takeLines_line hfeed hne, hnone]
    rfl

private theorem takeLines_whole (rest : Bytes) :
    takeLines (trailerLines fs ++ 13 :: 10 :: rest) = some (fs.map fieldText, rest) := by
  have hlines := takeLines_flatMap h.lines rest
  rw [List.flatMap_map] at hlines
  exact hlines

theorem check : Decoder.checkTrailers (fs.map fieldText) = .ok () := by
  have hjoined : joinFolded? (fs.map fieldText) = some (fs.map fieldText) := by
    refine joinFolded?_eq_self fun line hline => ?_
    obtain ⟨f, hf, rfl⟩ := List.mem_map.1 hline
    exact fieldText_head? (h.names f hf)
  have hfields := mapM_parseField? h.names h.values
  have hframing := checkFraming_of_none h.unframed none false
  simp only [Decoder.checkTrailers, hjoined, hfields, hframing]
  rfl

variable (limit : Int) (head : Head) (ps : List Bytes) (n : Nat)

private theorem readOn_whole (rest : Bytes) :
    readOn limit (.body head .trailers ps n) ⟨trailerLines fs ++ 13 :: 10 :: rest, false⟩ =
      .request head ps.reverse.flatten ⟨rest, false⟩ := by
  have hstep : Decoder.trailers.step (trailerLines fs ++ 13 :: 10 :: rest) = .complete rest := by
    simp only [Decoder.step, h.takeLines_whole, h.check]
  exact readBody_of_complete hstep

private theorem readOn_unfinished :
    readOn limit (.body head .trailers ps n) ⟨trailerLines fs, false⟩ =
      if maxIncomplete < (trailerLines fs).length then
        .refused .headTooLong (.body head .trailers ps n)
      else .waiting (.body head .trailers ps n) ⟨trailerLines fs, false⟩ := by
  have hstep : Decoder.trailers.step (trailerLines fs) = .more := by
    simp only [Decoder.step, h.takeLines_unfinished]
  exact (readBody_of_more hstep).trans (wait_of_open rfl)

end IsTrailer

/-! ## Runs on streams that give pieces -/

/-- A stream gives pieces one after the other; the relation says which are still to come. -/
structure HandsOut (io : ByteStream σ) (P : List Bytes → σ → Prop) : Prop where
  gives {piece : Bytes} {others : List Bytes} {s : σ} : piece ≠ [] → P (piece :: others) s →
    ∃ s', io.receive receiveSize s = (.ok piece, s') ∧ P others s'

section HandsOut

variable {io : ByteStream σ} {P : List Bytes → σ → Prop} (hio : HandsOut io P)
variable {limit : Int} {p q : Progress} {i j : Inbox} {s : σ} {piece : Bytes} {others : List Bytes}

private theorem requests_of_refused {fault : Fault} (hread : readOn limit p i = .refused fault q)
    (app : Application τ) (steps : Nat) (s : σ) (a : τ) :
    (serve app limit io (steps + 1) p i s a).requests = [] := by
  have hnone : ∀ request ∈ (sendReply io (transmit q.peer { status := fault.status }) s a
      fun t => ⟨[], some (.ok ()), t, a⟩).requests, False :=
    forall_sendReply fun t request hrequest => List.not_mem_nil hrequest
  rw [serve_of_refused hread, Run.requests_after]
  exact List.eq_nil_iff_forall_not_mem.2 hnone

include hio

private theorem requests_of_waiting (hread : readOn limit p i = .waiting q j) (hpiece : piece ≠ [])
    (hs : P (piece :: others) s) (app : Application τ) (steps : Nat) (a : τ) :
    ∃ s', P others s' ∧ (serve app limit io (steps + 1) p i s a).requests =
      (serve app limit io steps q ⟨j.buffer ++ piece, false⟩ s' a).requests := by
  obtain ⟨s', hreceive, hs'⟩ := hio.gives hpiece hs
  refine ⟨s', hs', ?_⟩
  rw [serve_of_received hread hreceive hpiece, Run.requests_after]
  rfl

variable {start : Bytes} {head : Head} {ps : List Bytes} {n : Nat}
variable (hne : start ≠ []) (hstart : readOn limit .head ⟨start, false⟩ =
  .waiting (.body head .trailers ps n) ⟨[], false⟩)
variable {fs gs : List Field} (h : IsTrailer (fs ++ gs)) (hfs : fs ≠ [])
variable (hfits : (trailerLines fs).length ≤ maxIncomplete)
include hne hstart h hfs hfits

private theorem requests_of_lines (hs : P (start :: trailerLines fs :: piece :: others) s)
    (hpiece : piece ≠ []) (app : Application τ) (steps : Nat) (a : τ) :
    ∃ s', P others s' ∧ (serve app limit io (steps + 3) .head {} s a).requests =
      (serve app limit io steps (.body head .trailers ps n) ⟨trailerLines fs ++ piece, false⟩ s'
        a).requests := by
  have hempty : readOn limit .head {} = .waiting .head {} := by
    have hnone : takeLines [] = none := by
      rw [takeLines]
      rfl
    simp [readOn, readHead, hnone, startsBadly, wait, maxIncomplete]
  have hwaits := h.left.readOn_unfinished limit head ps n
  rw [if_neg (Nat.not_lt.2 hfits)] at hwaits
  obtain ⟨s₁, hs₁, hfirst⟩ := requests_of_waiting hio hempty hne hs app (steps + 2) a
  obtain ⟨s₂, hs₂, hsecond⟩ :=
    requests_of_waiting hio hstart (trailerLines_ne_nil hfs) hs₁ app (steps + 1) a
  obtain ⟨s₃, hs₃, hthird⟩ := requests_of_waiting hio hwaits hpiece hs₂ app steps a
  exact ⟨s₃, hs₃, hfirst.trans (hsecond.trans hthird)⟩

theorem requests_of_ended
    (hs : P (start :: trailerLines fs :: (trailerLines gs ++ [13, 10]) :: others) s)
    (app : Application τ) (steps : Nat) (a : τ) :
    ∃ later, (serve app limit io (steps + 4) .head {} s a).requests =
      head.request ps.reverse.flatten :: later := by
  obtain ⟨s', -, hrequests⟩ := requests_of_lines hio hne hstart h hfs hfits hs (by simp) app
    (steps + 1) a
  have hread := h.readOn_whole limit head ps n []
  rw [trailerLines_append, List.append_assoc] at hread
  rw [hrequests, serve_of_request hread, Run.requests_after]
  exact ⟨_, rfl⟩

theorem requests_of_late (hgs : gs ≠ []) (hlong : maxIncomplete < (trailerLines (fs ++ gs)).length)
    (hs : P (start :: trailerLines fs :: trailerLines gs :: others) s) (app : Application τ)
    (steps : Nat) (a : τ) : (serve app limit io (steps + 4) .head {} s a).requests = [] := by
  obtain ⟨s', -, hrequests⟩ := requests_of_lines hio hne hstart h hfs hfits hs
    (trailerLines_ne_nil hgs) app (steps + 1) a
  have hread := h.readOn_unfinished limit head ps n
  rw [if_pos hlong, trailerLines_append] at hread
  rw [hrequests]
  exact requests_of_refused hread app steps s' a

end HandsOut

end TlsGate.Http
