import TlsGate.Proofs.Http.Serving

/-!
A connection as a course of stages. Between two receives reading takes many small steps: it begins a
request, collects a piece of its body, passes over bytes of the coding. A stage is where serving
stands before one of them, and each move from a stage to the next has the events that it takes. What
a run does from a stage on does not depend on how the stage was come to, so a property of every
stage that is reached is a property of the connection at every moment.
-/

set_option autoImplicit false
set_option relaxedAutoImplicit false

namespace TlsGate.Http

variable {σ τ : Type}

/-- Where serving a connection stands. -/
structure Stage (σ τ : Type) where
  progress : Progress
  inbox : Inbox
  stream : σ
  application : τ

namespace Stage

def serve (app : Application τ) (limit : Int) (io : ByteStream σ) (steps : Nat)
    (g : Stage σ τ) : Run σ τ :=
  Http.serve app limit io steps g.progress g.inbox g.stream g.application

def start (stream : σ) (application : τ) : Stage σ τ := ⟨.head, {}, stream, application⟩

inductive Moves (app : Application τ) (limit : Int) (io : ByteStream σ) :
    Stage σ τ → Nat → List Event → Stage σ τ → Prop
  | begins {i : Inbox} {s : σ} {a : τ} {lines : List Bytes} {rest : Bytes} {head : Head}
      (hlines : takeLines i.buffer = some (lines, rest)) (hparse : Head.parse lines = .ok head)
      (hlong : ¬ head.isTooLong limit) :
      Moves app limit io ⟨.head, i, s, a⟩ 0 []
        ⟨.body head (Decoder.start (framingOf head.fields)) [] 0, { i with buffer := rest }, s, a⟩
  | collects {i : Inbox} {s : σ} {a : τ} {head : Head} {d next : Decoder} {ps : List Bytes}
      {n : Nat} {data rest : Bytes} (hstep : d.step i.buffer = .piece data rest next)
      (hlimit : ¬ limit < (n + data.length : Nat)) :
      Moves app limit io ⟨.body head d ps n, i, s, a⟩ 0 []
        ⟨.body head next (data :: ps) (n + data.length), { i with buffer := rest }, s, a⟩
  | passes {i : Inbox} {s : σ} {a : τ} {head : Head} {d next : Decoder} {ps : List Bytes}
      {n : Nat} {rest : Bytes} (hstep : d.step i.buffer = .passed rest next) :
      Moves app limit io ⟨.body head d ps n, i, s, a⟩ 0 []
        ⟨.body head next ps n, { i with buffer := rest }, s, a⟩
  | receives {p : Progress} {i : Inbox} {s t : σ} {a : τ} {data : Bytes}
      (hwait : readOn limit p i = .waiting p i)
      (hreceive : io.receive receiveSize s = (.ok data, t)) :
      Moves app limit io ⟨p, i, s, a⟩ 1 [.received data]
        ⟨p, ⟨i.buffer ++ data, data.isEmpty⟩, t, a⟩
  | ends {p : Progress} {i : Inbox} {s t : σ} {a : τ}
      (hwait : readOn limit p i = .waiting p i)
      (hreceive : io.receive receiveSize s = (.error .ended, t)) :
      Moves app limit io ⟨p, i, s, a⟩ 1 [.receiveFailed .ended] ⟨p, { i with closed := true }, t, a⟩
  | answers {i : Inbox} {s t : σ} {a b : τ} {head : Head} {d : Decoder} {ps : List Bytes} {n : Nat}
      {rest : Bytes} {answer : Answer} {events : List Event}
      (hstep : d.step i.buffer = .complete rest)
      (hanswer : app.answer (head.request ps.reverse.flatten) a = (answer, b))
      (hdeliver : ∀ next,
        answer.deliver io head (head.request ps.reverse.flatten) s b next = (next t).after events) :
      Moves app limit io ⟨.body head d ps n, i, s, a⟩ 1
        (.called (head.request ps.reverse.flatten) answer :: events)
        ⟨.head, { i with buffer := rest }, t, b⟩

/-- The stages that are come to from one, with the steps that it takes and what happens. -/
inductive Reaches (app : Application τ) (limit : Int) (io : ByteStream σ) :
    Stage σ τ → Nat → List Event → Stage σ τ → Prop
  | here (g : Stage σ τ) : Reaches app limit io g 0 [] g
  | move {g h k : Stage σ τ} {steps more : Nat} {events later : List Event}
      (before : Reaches app limit io g steps events h) (next : Moves app limit io h more later k) :
      Reaches app limit io g (steps + more) (events ++ later) k

/-- A run has only one step left, whatever the number of steps that it may have. -/
def IsLast (app : Application τ) (limit : Int) (io : ByteStream σ) (g : Stage σ τ) : Prop :=
  ∃ run : Run σ τ, run.outcome ≠ none ∧ ∀ steps, g.serve app limit io (steps + 1) = run

/-- There is a move to a next stage. -/
def GoesOn (app : Application τ) (limit : Int) (io : ByteStream σ) (g : Stage σ τ) : Prop :=
  ∃ more events h, Moves app limit io g more events h

variable {app : Application τ} {limit : Int} {io : ByteStream σ}

/-! ## Stages and runs -/

theorem serve_congr {p q : Progress} {i j : Inbox} (h : readOn limit p i = readOn limit q j)
    (steps : Nat) (s : σ) (a : τ) :
    Http.serve app limit io steps p i s a = Http.serve app limit io steps q j s a := by
  cases steps with
  | zero => rfl
  | succ steps => simp only [Http.serve, h]

theorem Moves.serve_eq {g h : Stage σ τ} {more : Nat} {events : List Event}
    (hmove : Moves app limit io g more events h) (steps : Nat) :
    g.serve app limit io (steps + more) = (h.serve app limit io steps).after events := by
  cases hmove with
  | @begins i s a lines rest head hlines hparse hlong =>
    have hread : readOn limit .head i = readOn limit
        (.body head (Decoder.start (framingOf head.fields)) [] 0) { i with buffer := rest } :=
      readHead_of_ok hlines hparse hlong
    exact serve_congr hread steps s a
  | @collects i s a head d next ps n data rest hstep hlimit =>
    have hread : readOn limit (.body head d ps n) i = readOn limit
        (.body head next (data :: ps) (n + data.length)) { i with buffer := rest } := by
      show readBody limit head d ps n i = _
      rw [readBody_of_piece hstep, if_neg hlimit]
      rfl
    exact serve_congr hread steps s a
  | @passes i s a head d next ps n rest hstep =>
    have hread : readOn limit (.body head d ps n) i =
        readOn limit (.body head next ps n) { i with buffer := rest } := readBody_of_passed hstep
    exact serve_congr hread steps s a
  | receives hwait hreceive =>
    show Http.serve app limit io (steps + 1) _ _ _ _ = _
    rw [serve_of_waiting hwait, hreceive]
    rfl
  | ends hwait hreceive =>
    show Http.serve app limit io (steps + 1) _ _ _ _ = _
    rw [serve_of_waiting hwait, hreceive]
    rfl
  | @answers i s t a b head d ps n rest answer events hstep hanswer hdeliver =>
    have hread : readOn limit (.body head d ps n) i =
        .request head ps.reverse.flatten { i with buffer := rest } := readBody_of_complete hstep
    show Http.serve app limit io (steps + 1) _ _ _ _ = _
    rw [serve_of_request hread, hanswer]
    show (answer.deliver io head (head.request ps.reverse.flatten) s b _).after _ = _
    rw [hdeliver, Run.after_after]
    rfl

theorem Reaches.serve_eq {g h : Stage σ τ} {steps : Nat} {events : List Event}
    (hreach : Reaches app limit io g steps events h) (more : Nat) :
    g.serve app limit io (more + steps) = (h.serve app limit io more).after events := by
  induction hreach generalizing more with
  | here => rfl
  | @move h k steps later events after _ hmove ih =>
    have hsplit : more + (steps + later) = (more + later) + steps := by omega
    rw [hsplit, ih, hmove.serve_eq, Run.after_after]

private theorem goesOn_or_isLast_of_waiting {p : Progress} {i : Inbox}
    (hwait : readOn limit p i = .waiting p i) (s : σ) (a : τ) :
    GoesOn app limit io ⟨p, i, s, a⟩ ∨ IsLast app limit io ⟨p, i, s, a⟩ := by
  rcases hreceive : io.receive receiveSize s with ⟨result, t⟩
  cases result with
  | ok data => exact .inl ⟨_, _, _, .receives hwait hreceive⟩
  | error fault =>
    by_cases hended : fault = .ended
    · subst hended
      exact .inl ⟨_, _, _, .ends hwait hreceive⟩
    · refine .inr ⟨(stopAt fault t a).after [.receiveFailed fault], stopAt_outcome fault t a, ?_⟩
      intro steps
      show Http.serve app limit io (steps + 1) p i s a = _
      rw [serve_of_waiting hwait, hreceive]
      cases fault with
      | ended => exact absurd rfl hended
      | _ => rfl

private theorem isLast_of_refused {p q : Progress} {i : Inbox} {fault : Fault}
    (hread : readOn limit p i = .refused fault q) (s : σ) (a : τ) :
    IsLast app limit io ⟨p, i, s, a⟩ := by
  refine ⟨_, ?_, fun steps => serve_of_refused hread⟩
  rw [Run.outcome_after]
  have hparallel := sendReply_parallel (sendAlike_refl io) q.peer { status := fault.status }
    (Eq.refl s) a
  exact hparallel.outcome_ne_none fun _ _ _ => Option.some_ne_none _

private theorem goesOn_or_isLast_of_wait {p : Progress} {i : Inbox}
    (hread : readOn limit p i = wait p i)
    (s : σ) (a : τ) :
    GoesOn app limit io ⟨p, i, s, a⟩ ∨ IsLast app limit io ⟨p, i, s, a⟩ := by
  cases hwait : wait p i with
  | waiting q j =>
    obtain ⟨rfl, rfl⟩ : q = p ∧ j = i := by
      unfold wait at hwait
      split at hwait
      · split at hwait
        · split at hwait <;> cases hwait
        · cases hwait
      · split at hwait
        · cases hwait
        · cases hwait
          exact ⟨rfl, rfl⟩
    exact goesOn_or_isLast_of_waiting (hread.trans hwait) s a
  | finished =>
    exact .inr ⟨_, Option.some_ne_none _, fun steps => serve_of_finished (hread.trans hwait)⟩
  | refused fault q => exact .inr (isLast_of_refused (hread.trans hwait) s a)
  | request head body j =>
    unfold wait at hwait
    split at hwait
    · split at hwait
      · split at hwait <;> cases hwait
      · cases hwait
    · split at hwait <;> cases hwait

private theorem goesOn_or_isLast_of_complete {i : Inbox} {head : Head} {d : Decoder}
    {ps : List Bytes}
    {n : Nat} {rest : Bytes} (hstep : d.step i.buffer = .complete rest) (s : σ) (a : τ) :
    GoesOn app limit io ⟨.body head d ps n, i, s, a⟩ ∨
      IsLast app limit io ⟨.body head d ps n, i, s, a⟩ := by
  have hread : readOn limit (.body head d ps n) i =
      .request head ps.reverse.flatten { i with buffer := rest } := readBody_of_complete hstep
  rcases hanswer : app.answer (head.request ps.reverse.flatten) a with ⟨answer, b⟩
  have hparallel := deliver_parallel (sendAlike_refl io) head (head.request ps.reverse.flatten)
    answer (Eq.refl s) b
  cases hparallel with
  | ends run _ hk _ hended _ =>
    refine .inr ⟨run.after [.called (head.request ps.reverse.flatten) answer], hended, ?_⟩
    intro steps
    show Http.serve app limit io (steps + 1) _ _ _ _ = _
    rw [serve_of_request hread, hanswer]
    exact congrArg _ (hk _)
  | goesOn events t _ hk _ _ => exact .inl ⟨_, _, _, .answers hstep hanswer hk⟩

theorem goesOn_or_isLast (app : Application τ) (limit : Int) (io : ByteStream σ) (g : Stage σ τ) :
    g.GoesOn app limit io ∨ g.IsLast app limit io := by
  obtain ⟨p, i, s, a⟩ := g
  cases p with
  | head =>
    cases hlines : takeLines i.buffer with
    | none =>
      have hread : readOn limit .head i = _ := readHead_of_none hlines
      by_cases hbad : startsBadly i.buffer = true
      · rw [if_pos hbad] at hread
        exact .inr (isLast_of_refused hread s a)
      · rw [if_neg hbad] at hread
        exact goesOn_or_isLast_of_wait hread s a
    | some found =>
      obtain ⟨lines, rest⟩ := found
      cases hparse : Head.parse lines with
      | error fault =>
        have hread : readOn limit .head i = .refused fault .head :=
          readHead_of_error hlines hparse
        exact .inr (isLast_of_refused hread s a)
      | ok head =>
        by_cases hlong : head.isTooLong limit
        · have hread : readOn limit .head i = .refused (.bodyTooLarge limit) _ :=
            readHead_of_tooLong hlines hparse hlong
          exact .inr (isLast_of_refused hread s a)
        · exact .inl ⟨_, _, _, .begins hlines hparse hlong⟩
  | body head d ps n =>
    cases hstep : d.step i.buffer with
    | more =>
      have hread : readOn limit (.body head d ps n) i = wait (.body head d ps n) i :=
        readBody_of_more hstep
      exact goesOn_or_isLast_of_wait hread s a
    | piece data rest next =>
      by_cases hlimit : limit < (n + data.length : Nat)
      · have hread : readOn limit (.body head d ps n) i = _ := readBody_of_piece hstep
        rw [if_pos hlimit] at hread
        exact .inr (isLast_of_refused hread s a)
      · exact .inl ⟨_, _, _, .collects hstep hlimit⟩
    | passed rest next => exact .inl ⟨_, _, _, .passes hstep⟩
    | complete rest => exact goesOn_or_isLast_of_complete hstep s a
    | broken fault =>
      have hread : readOn limit (.body head d ps n) i = .refused fault (.body head d ps n) :=
        readBody_of_broken hstep
      exact .inr (isLast_of_refused hread s a)

end Stage

end TlsGate.Http
