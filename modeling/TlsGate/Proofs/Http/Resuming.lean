import TlsGate.Http.Handler
import TlsGate.Proofs.Http.Parts

/-!
Reading on when more bytes arrive. What reading finds in a buffer it also finds when more bytes
follow, and where it waits, reading on comes to the same end as reading everything at once. The
pieces that a body has been read in, and the wording of a refusal, are not part of that end.
-/

set_option autoImplicit false
set_option relaxedAutoImplicit false

namespace TlsGate.Http

open TlsGate.Text

variable {limit : Int} {head : Head} {d : Decoder} {ps ps' : List Bytes} {n : Nat} {i : Inbox}
variable {m : Bytes}

/-! ## Equations of reading a body -/

theorem readBody_of_more (h : d.step i.buffer = .more) :
    readBody limit head d ps n i = wait (.body head d ps n) i := by
  rw [readBody]
  split <;> rename_i hstep <;> rw [h] at hstep <;> cases hstep

theorem readBody_of_piece {data rest : Bytes} {next : Decoder}
    (h : d.step i.buffer = .piece data rest next) :
    readBody limit head d ps n i =
      if limit < (n + data.length : Nat) then .refused (.bodyTooLarge limit) (.body head next ps n)
      else readBody limit head next (data :: ps) (n + data.length) { i with buffer := rest } := by
  rw [readBody]
  split <;> rename_i hstep <;> rw [h] at hstep <;> cases hstep
  rfl

theorem readBody_of_passed {rest : Bytes} {next : Decoder}
    (h : d.step i.buffer = .passed rest next) :
    readBody limit head d ps n i = readBody limit head next ps n { i with buffer := rest } := by
  rw [readBody]
  split <;> rename_i hstep <;> rw [h] at hstep <;> cases hstep
  rfl

theorem readBody_of_complete {rest : Bytes} (h : d.step i.buffer = .complete rest) :
    readBody limit head d ps n i = .request head ps.reverse.flatten { i with buffer := rest } := by
  rw [readBody]
  split <;> rename_i hstep <;> rw [h] at hstep <;> cases hstep
  rfl

theorem readBody_of_broken {fault : Fault} (h : d.step i.buffer = .broken fault) :
    readBody limit head d ps n i = .refused fault (.body head d ps n) := by
  rw [readBody]
  split <;> rename_i hstep <;> rw [h] at hstep <;> cases hstep
  rfl

/-! ## Readings that a client cannot tell apart -/

def Progress.merged : Progress → Progress
  | .head => .head
  | .body head decoder pieces size => .body head decoder [pieces.reverse.flatten] size

inductive Reading.Same : Reading → Reading → Prop
  | waiting {p p' : Progress} {i : Inbox} (hp : p.merged = p'.merged) :
      Same (.waiting p i) (.waiting p' i)
  | request {head : Head} {body : Bytes} {i : Inbox} :
      Same (.request head body i) (.request head body i)
  | finished : Same .finished .finished
  | refused {f f' : Fault} {p p' : Progress} (hf : f.status = f'.status) (hp : p.peer = p'.peer) :
      Same (.refused f p) (.refused f' p')

theorem Reading.Same.refl (r : Reading) : r.Same r := by
  cases r with
  | waiting p i => exact .waiting rfl
  | request head body i => exact .request
  | finished => exact .finished
  | refused f p => exact .refused rfl rfl

private theorem wait_same (h : ps.reverse.flatten = ps'.reverse.flatten) :
    (wait (.body head d ps n) i).Same (wait (.body head d ps' n) i) := by
  unfold wait
  split
  · exact .refused rfl rfl
  · split
    · exact .refused rfl rfl
    · refine .waiting ?_
      simp only [Progress.merged, h]

private theorem readBody_same (h : ps.reverse.flatten = ps'.reverse.flatten) :
    (readBody limit head d ps n i).Same (readBody limit head d ps' n i) := by
  fun_induction readBody limit head d ps n i generalizing ps' with
  | case1 d ps n i hstep =>
    rw [readBody_of_more hstep]
    exact wait_same h
  | case2 d ps n i data rest next hstep hlimit =>
    rw [readBody_of_piece hstep, if_pos hlimit]
    exact .refused rfl rfl
  | case3 d ps n i data rest next hstep hlimit ih =>
    rw [readBody_of_piece hstep, if_neg hlimit]
    refine ih ?_
    simp only [List.reverse_cons, List.flatten_append, h]
  | case4 d ps n i rest next hstep ih =>
    rw [readBody_of_passed hstep]
    exact ih h
  | case5 d ps n i rest hstep =>
    rw [readBody_of_complete hstep, h]
    exact .request
  | case6 d ps n i fault hstep =>
    rw [readBody_of_broken hstep]
    exact .refused rfl rfl

theorem readOn_same {p p' : Progress} (h : p.merged = p'.merged) (i : Inbox) :
    (readOn limit p i).Same (readOn limit p' i) := by
  cases p with
  | head =>
    cases p' with
    | head => exact .refl _
    | body => simp [Progress.merged] at h
  | body head d ps n =>
    cases p' with
    | head => simp [Progress.merged] at h
    | body head' d' ps' n' =>
      simp only [Progress.merged, Progress.body.injEq, List.cons.injEq, and_true] at h
      obtain ⟨rfl, rfl, hps, rfl⟩ := h
      exact readBody_same hps

/-! ## Reading with more bytes behind the buffer -/

def Progress.place : Progress → Place
  | .head => .head
  | .body _ decoder _ _ => .body decoder

def Inbox.extend (i : Inbox) (m : Bytes) : Inbox := { i with buffer := i.buffer ++ m }

/-- How reading more bytes at once compares with reading a part of them first. What is left to read
fits if the whole did. -/
inductive Reading.Extends (limit : Int) (m : Bytes) : Reading → Reading → Prop
  | waiting {p : Progress} {i : Inbox} {r : Reading} (hopen : i.closed = false)
      (hfit : p.place.Fits (i.buffer ++ m)) (h : (readOn limit p (i.extend m)).Same r) :
      Extends limit m (.waiting p i) r
  | request {head : Head} {body : Bytes} {i : Inbox} (hopen : i.closed = false)
      (hfit : Place.head.Fits (i.buffer ++ m)) :
      Extends limit m (.request head body i) (.request head body (i.extend m))
  | refused {f f' : Fault} {p p' : Progress} (hf : f.status = f'.status) (hp : p.peer = p'.peer) :
      Extends limit m (.refused f p) (.refused f' p')

private theorem Decoder.step_more_append {b : Bytes} (hstep : d.step b = .more)
    (hlong : maxIncomplete < b.length) (hfit : (Place.body d).Fits (b ++ m)) :
    d.step (b ++ m) = .more := by
  cases b with
  | nil => exact absurd hlong (Nat.not_lt_zero _)
  | cons c tail =>
    cases d with
    | counted missing => cases missing <;> cases hstep
    | size =>
      have hnone : takeLine [] (c :: tail) = none := by
        cases hline : takeLine [] (c :: tail) with
        | none => rfl
        | some found =>
          simp only [step, hline] at hstep
          split at hstep <;> cases hstep
      simp only [step, (takeLine_decided []).none_append hnone hlong hfit.part]
    | chunk others => cases hstep
    | chunkEnd =>
      simp only [step] at hstep
      split at hstep <;> simp_all
    | chunkFeed =>
      simp only [step] at hstep
      split at hstep <;> simp_all
    | trailers =>
      have hnone : takeLines (c :: tail) = none := by
        cases hlines : takeLines (c :: tail) with
        | none => rfl
        | some found =>
          simp only [step, hlines] at hstep
          split at hstep <;> cases hstep
      simp only [step, takeLines_decided.none_append hnone hlong hfit.part]

private theorem Place.partLength_of_piece {b data rest : Bytes} {next : Decoder}
    (h : d.step b = .piece data rest next) : (Place.body d).partLength b = 0 := by
  cases d with
  | size =>
    simp only [Decoder.step] at h
    split at h
    · cases h
    · split at h <;> cases h
  | trailers =>
    simp only [Decoder.step] at h
    split at h
    · cases h
    · split at h <;> cases h
  | _ => rfl

private theorem Place.advance_of_piece {b data rest : Bytes} {next : Decoder}
    (h : d.step b = .piece data rest next) :
    (Place.body d).advance b = some (.body next, rest) := by
  simp only [Place.advance, h]

theorem Place.advance_of_passed {b rest : Bytes} {next : Decoder}
    (h : d.step b = .passed rest next) : (Place.body d).advance b = some (.body next, rest) := by
  simp only [Place.advance, h]

theorem Place.advance_of_complete {b rest : Bytes} (h : d.step b = .complete rest) :
    (Place.body d).advance b = some (.head, rest) := by
  simp only [Place.advance, h]

theorem Place.fits_of_piece {b data rest : Bytes} {next : Decoder}
    (h : d.step b = .piece data rest next) (hfit : (Place.body next).Fits rest) :
    (Place.body d).Fits b := by
  refine .of_advance (by rw [Place.partLength_of_piece h]; exact Nat.zero_le _) ?_
  intro q last ha
  rw [Place.advance_of_piece h] at ha
  cases ha
  exact hfit

private theorem Place.fits_chunkFeed {b : Bytes} (h : d.step b = Decoder.chunkFeed.step m)
    (hfit : (Place.body d).Fits b) : (Place.body .chunkFeed).Fits m := by
  refine .of_advance (Nat.zero_le _) ?_
  intro q last ha
  refine hfit.advance ?_
  simpa only [Place.advance, h] using ha

theorem wait_of_open {p : Progress} (hopen : i.closed = false) :
    wait p i =
      if maxIncomplete < i.buffer.length then .refused .headTooLong p else .waiting p i := by
  unfold wait
  rw [hopen, if_neg Bool.false_ne_true]

private theorem Decoder.chunkFeed_step (hm : m ≠ []) :
    (∃ rest, chunkFeed.step m = .passed rest .size) ∨ chunkFeed.step m = .broken .chunkEnd := by
  obtain ⟨c, tail, rfl⟩ := List.exists_cons_of_ne_nil hm
  by_cases hc : c = 10
  · subst hc
    exact .inl ⟨tail, rfl⟩
  · right
    simp [step, hc]

private theorem readBody_of_empty {next : Decoder} (hempty : next.step [] = .more)
    (hopen : i.closed = false) :
    readBody limit head next ps n { i with buffer := [] } =
      .waiting (.body head next ps n) { i with buffer := [] } := by
  rw [readBody_of_more hempty, wait_of_open (i := { i with buffer := [] }) hopen]
  rfl

private theorem readBody_longer {data data' rest : Bytes} {next next' : Decoder}
    (hnew : d.step (i.buffer ++ m) = .piece (data ++ data') rest next')
    (hnext : next.step m = .piece data' rest next') :
    (readBody limit head next (data :: ps) (n + data.length)
      (Inbox.extend { i with buffer := [] } m)).Same
      (readBody limit head d ps n (i.extend m)) := by
  rw [readBody_of_piece (i := i.extend m) hnew,
    readBody_of_piece (i := Inbox.extend { i with buffer := [] } m) hnext]
  simp only [List.length_append, Nat.add_assoc]
  split
  · exact .refused rfl rfl
  · refine readBody_same ?_
    simp

private theorem readBody_halfway (hm : m ≠ [])
    (hnew : d.step (i.buffer ++ m) = Decoder.chunkFeed.step m) :
    (readBody limit head .chunkFeed ps n (Inbox.extend { i with buffer := [] } m)).Same
      (readBody limit head d ps n (i.extend m)) := by
  rcases Decoder.chunkFeed_step hm with ⟨after, hfeed⟩ | hfeed <;> rw [hfeed] at hnew
  · rw [readBody_of_passed (i := i.extend m) hnew,
      readBody_of_passed (i := Inbox.extend { i with buffer := [] } m) hfeed]
    exact .refl _
  · rw [readBody_of_broken (i := i.extend m) hnew,
      readBody_of_broken (i := Inbox.extend { i with buffer := [] } m) hfeed]
    exact .refused rfl rfl

private theorem readBody_extends (hm : m ≠ []) (hopen : i.closed = false)
    (hfit : (Place.body d).Fits (i.buffer ++ m)) :
    (readBody limit head d ps n i).Extends limit m (readBody limit head d ps n (i.extend m)) := by
  fun_induction readBody limit head d ps n i with
  | case1 d ps n i hstep =>
    rw [wait_of_open hopen]
    split
    · rename_i hlong
      have hmore := Decoder.step_more_append hstep hlong hfit
      have hlong' : maxIncomplete < (i.extend m).buffer.length := by
        simp only [Inbox.extend, List.length_append]
        omega
      rw [readBody_of_more (i := i.extend m) hmore, wait_of_open (i := i.extend m) hopen,
        if_pos hlong']
      exact .refused rfl rfl
    · exact .waiting hopen hfit (.refl _)
  | case2 d ps n i data rest next hstep hlimit =>
    obtain ⟨grown, hnew, hgrow⟩ := Decoder.exists_grows hm hstep nofun
    cases hgrow with
    | piece =>
      rw [readBody_of_piece (i := i.extend m) hnew, if_pos hlimit]
      exact .refused rfl rfl
    | @longer _ data' _ _ _ hempty hnext =>
      have hlimit' : limit < (n + (data ++ data').length : Nat) := by
        rw [List.length_append]
        omega
      rw [readBody_of_piece (i := i.extend m) hnew, if_pos hlimit']
      exact .refused rfl rfl
  | case3 d ps n i data rest next hstep hlimit ih =>
    obtain ⟨grown, hnew, hgrow⟩ := Decoder.exists_grows hm hstep nofun
    cases hgrow with
    | piece =>
      rw [readBody_of_piece (i := i.extend m) hnew, if_neg hlimit]
      exact ih hopen (hfit.advance (Place.advance_of_piece hnew))
    | @longer _ data' rest' _ next' hempty hnext =>
      rw [readBody_of_empty hempty hopen]
      exact .waiting hopen
        (Place.fits_of_piece hnext (hfit.advance (Place.advance_of_piece hnew)))
        (readBody_longer hnew hnext)
  | case4 d ps n i rest next hstep ih =>
    obtain ⟨grown, hnew, hgrow⟩ := Decoder.exists_grows hm hstep nofun
    cases hgrow with
    | passed =>
      rw [readBody_of_passed (i := i.extend m) hnew]
      exact ih hopen (hfit.advance (Place.advance_of_passed hnew))
    | halfway =>
      rw [readBody_of_empty rfl hopen]
      exact .waiting hopen (Place.fits_chunkFeed hnew hfit) (readBody_halfway hm hnew)
  | case5 d ps n i rest hstep =>
    obtain ⟨grown, hnew, hgrow⟩ := Decoder.exists_grows hm hstep nofun
    cases hgrow
    rw [readBody_of_complete (i := i.extend m) hnew]
    exact .request hopen (hfit.advance (Place.advance_of_complete hnew))
  | case6 d ps n i fault hstep =>
    obtain ⟨grown, hnew, hgrow⟩ := Decoder.exists_grows hm hstep nofun
    cases hgrow
    rw [readBody_of_broken (i := i.extend m) hnew]
    exact .refused rfl rfl

/-! ## Heads -/

private theorem isToken_eq_false {b : UInt8} (hb : b < 33) {word : Bytes}
    (h : word = [] ∨ word.head? = some b) : isToken word = false := by
  rcases h with rfl | h
  · rfl
  · cases word with
    | nil => rfl
    | cons c word =>
      simp only [List.head?_cons, Option.some.injEq] at h
      subst h
      have hbyte : isTokenByte c = false := by
        have : ∀ n : Fin 33, isTokenByte (UInt8.ofNat n.val) = false := by decide
        have hn := this ⟨c.toNat, by simpa [UInt8.lt_iff_toNat_lt] using hb⟩
        simpa using hn
      simp [isToken, hbyte]

private theorem requestLine_eq_none {b : UInt8} (hb : b < 33) (line : Bytes) :
    RequestLine.parse? (b :: line) = none := by
  obtain ⟨first, others, heq, hfirst⟩ := fields_cons 32 b line
  have htoken := isToken_eq_false hb hfirst
  unfold RequestLine.parse?
  rw [heq]
  split
  · rename_i hfields
    simp only [List.cons.injEq] at hfields
    obtain ⟨rfl, -⟩ := hfields
    simp [htoken]
  · rfl

private theorem stripReturn_cut {b : UInt8} {tail : Bytes}
    (h : stripReturn (cutFirst 10 (b :: tail)).1 ≠ []) :
    ∃ line, stripReturn (cutFirst 10 (b :: tail)).1 = b :: line := by
  by_cases hb : b = 10
  · exact absurd (by simp [cutFirst, stripReturn, hb]) h
  · obtain ⟨line, hline⟩ : ∃ line, (cutFirst 10 (b :: tail)).1 = b :: line := by
      simp [cutFirst, hb]
    rw [hline] at h ⊢
    unfold stripReturn at h ⊢
    split
    · rename_i hlast
      rw [if_pos hlast] at h
      cases line with
      | nil => exact absurd rfl h
      | cons c line => exact ⟨(c :: line).dropLast, rfl⟩
    · exact ⟨line, rfl⟩

private theorem Head.parse_of_startsBadly {input rest : Bytes} {lines : List Bytes}
    (hbad : startsBadly input = true) (h : takeLines input = some (lines, rest)) :
    ∃ fault, Head.parse lines = .error fault ∧ fault.status = 400 := by
  cases input with
  | nil => simp [startsBadly] at hbad
  | cons b tail =>
    have hb : b < 33 := by simpa [startsBadly] using hbad
    rw [takeLines] at h
    split at h
    · simp at h
    · dsimp only at h
      split at h
      · simp only [Option.some.injEq, Prod.mk.injEq] at h
        obtain ⟨rfl, -⟩ := h
        exact ⟨.noRequestLine, rfl, rfl⟩
      · rename_i hline
        obtain ⟨found, -, heq⟩ := Option.map_eq_some_iff.1 h
        simp only [Prod.mk.injEq] at heq
        obtain ⟨rfl, -⟩ := heq
        obtain ⟨line, hline⟩ := stripReturn_cut hline
        refine ⟨.requestLine, ?_, rfl⟩
        rw [hline]
        simp only [Head.parse, requestLine_eq_none hb line]
        rfl

private theorem startsBadly_append {b : Bytes} (hb : b ≠ []) : startsBadly
    (b ++ m) = startsBadly b := by
  obtain ⟨c, tail, rfl⟩ := List.exists_cons_of_ne_nil hb
  rfl

/-! ## Equations of reading a head -/

theorem readHead_of_none (h : takeLines i.buffer = none) :
    readHead limit i =
      if startsBadly i.buffer then .refused .requestLine .head else wait .head i := by
  simp only [readHead, h]

theorem readHead_of_error {lines : List Bytes} {rest : Bytes} {fault : Fault}
    (h : takeLines i.buffer = some (lines, rest)) (hparse : Head.parse lines = .error fault) :
    readHead limit i = .refused fault .head := by
  simp only [readHead, h, hparse]

def Head.isTooLong (limit : Int) (head : Head) : Prop :=
  ∃ n, head.statedLength? = some n ∧ limit < (n : Int)

theorem readHead_of_tooLong {lines : List Bytes} {rest : Bytes}
    (h : takeLines i.buffer = some (lines, rest)) (hparse : Head.parse lines = .ok head)
    (hlong : head.isTooLong limit) :
    readHead limit i = .refused (.bodyTooLarge limit)
      (.body head (Decoder.start (framingOf head.fields)) [] 0) := by
  obtain ⟨n, hn, hlimit⟩ := hlong
  simp only [readHead, h, hparse, hn, if_pos hlimit]

theorem readHead_of_ok {lines : List Bytes} {rest : Bytes}
    (h : takeLines i.buffer = some (lines, rest)) (hparse : Head.parse lines = .ok head)
    (hlong : ¬ head.isTooLong limit) :
    readHead limit i =
      readBody limit head (Decoder.start (framingOf head.fields)) [] 0
        { i with buffer := rest } := by
  cases hn : head.statedLength? with
  | none => simp only [readHead, h, hparse, hn]
  | some n =>
    have hlimit : ¬ limit < (n : Int) := fun hlt => hlong ⟨n, hn, hlt⟩
    simp only [readHead, h, hparse, hn, if_neg hlimit]

theorem Place.advance_head {b rest : Bytes} {lines : List Bytes}
    (h : takeLines b = some (lines, rest)) (hparse : Head.parse lines = .ok head) :
    Place.head.advance b = some (.body (Decoder.start (framingOf head.fields)), rest) := by
  simp only [Place.advance, h, hparse]

private theorem readHead_extends_of_bad (hbad : startsBadly i.buffer = true)
    (hlines : takeLines i.buffer = none) :
    (readHead limit i).Extends limit m (readHead limit (i.extend m)) := by
  have hne : i.buffer ≠ [] := by
    intro hempty
    rw [hempty] at hbad
    cases hbad
  have hbad' : startsBadly (i.extend m).buffer = true := (startsBadly_append hne).trans hbad
  rw [readHead_of_none hlines, if_pos hbad]
  cases hmore : takeLines (i.extend m).buffer with
  | none =>
    rw [readHead_of_none hmore, if_pos hbad']
    exact .refused rfl rfl
  | some found =>
    obtain ⟨fault, hparse, hstatus⟩ := Head.parse_of_startsBadly hbad' hmore
    rw [readHead_of_error hmore hparse]
    exact .refused hstatus.symm rfl

private theorem readHead_extends_of_unfinished (hopen : i.closed = false)
    (hfit : Place.head.Fits (i.buffer ++ m)) (hbad : ¬ startsBadly i.buffer = true)
    (hlines : takeLines i.buffer = none) :
    (readHead limit i).Extends limit m (readHead limit (i.extend m)) := by
  rw [readHead_of_none hlines, if_neg hbad, wait_of_open hopen]
  split
  · rename_i hlong
    have hne : i.buffer ≠ [] := by
      intro hempty
      rw [hempty] at hlong
      exact Nat.not_lt_zero _ hlong
    have hnone : takeLines (i.extend m).buffer = none :=
      takeLines_decided.none_append hlines hlong hfit.part
    have hbad' : ¬ startsBadly (i.extend m).buffer = true := by
      rwa [Inbox.extend, startsBadly_append hne]
    have hlong' : maxIncomplete < (i.extend m).buffer.length := by
      simp only [Inbox.extend, List.length_append]
      omega
    rw [readHead_of_none hnone, if_neg hbad', wait_of_open (i := i.extend m) hopen, if_pos hlong']
    exact .refused rfl rfl
  · exact .waiting hopen hfit (.refl _)

private theorem readHead_extends (hm : m ≠ []) (hopen : i.closed = false)
    (hfit : Place.head.Fits (i.buffer ++ m)) :
    (readHead limit i).Extends limit m (readHead limit (i.extend m)) := by
  cases hlines : takeLines i.buffer with
  | none =>
    by_cases hbad : startsBadly i.buffer = true
    · exact readHead_extends_of_bad hbad hlines
    · exact readHead_extends_of_unfinished hopen hfit hbad hlines
  | some found =>
    obtain ⟨lines, rest⟩ := found
    have hmore : takeLines (i.extend m).buffer = some (lines, rest ++ m) :=
      takeLines_decided.append hlines m
    cases hparse : Head.parse lines with
    | error fault =>
      rw [readHead_of_error hlines hparse, readHead_of_error hmore hparse]
      exact .refused rfl rfl
    | ok head =>
      by_cases hlong : head.isTooLong limit
      · rw [readHead_of_tooLong hlines hparse hlong, readHead_of_tooLong hmore hparse hlong]
        exact .refused rfl rfl
      · rw [readHead_of_ok hlines hparse hlong, readHead_of_ok hmore hparse hlong]
        exact readBody_extends (i := { i with buffer := rest }) hm hopen
          (hfit.advance (Place.advance_head hmore hparse))

theorem readOn_extends (limit : Int) (p : Progress) (hm : m ≠ []) (hopen : i.closed = false)
    (hfit : p.place.Fits (i.buffer ++ m)) :
    (readOn limit p i).Extends limit m (readOn limit p (i.extend m)) := by
  cases p with
  | head => exact readHead_extends hm hopen hfit
  | body => exact readBody_extends hm hopen hfit

end TlsGate.Http
