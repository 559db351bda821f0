import TlsGate.Proofs.Server.Arrivals
import TlsGate.Proofs.Server.FailClosed

/-!
A server that is started with a configuration file fails closed however its connections overlap.
What becomes of a connection is accounted for by the moments at which the files are read for its
context, all of them between its arrival and the end of the reads. Connections that come one after
the other are a special case.
-/

set_option autoImplicit false
set_option relaxedAutoImplicit false

namespace TlsGate.Server

open Config Policy Tls

variable {ε τ : Type}

/-! ## The files of a moment -/

/-- The files after events: only edits change them. -/
def filesAt (fs : FileSystem) (events : List Event) : FileSystem :=
  events.foldl (fun fs e => match e with
    | .edit e => e.apply fs
    | _ => fs) fs

/-- The files were like this at some moment after the event `i` and up to the event `m`. -/
def Between (fs : FileSystem) (events : List Event) (i m : Nat) (files : FileSystem) : Prop :=
  ∃ j, i < j ∧ j ≤ m ∧ files = filesAt fs (events.take j)

structure Glances.All (P : FileSystem → Prop) (g : Glances) : Prop where
  config : P g.config
  authorities : P g.authorities
  certFile : P g.own.certFile
  keyFile : P g.own.keyFile
  engineCertFile : P g.own.engineCertFile
  engineKeyFile : P g.own.engineKeyFile

/-- What holds of the context of a connection that arrived as the event `i`: the reads for it were
done after that, and before the connection got on. -/
def OnReads (fs : FileSystem) (events : List Event) (i k : Nat) (P : Glances → Prop) : Prop :=
  ∃ m g, events[m]? = some (.advance k) ∧ g.All (Between fs events i m) ∧ P g

section Moments

variable {fs : FileSystem} {events : List Event} {i k m : Nat} {files : FileSystem}

private theorem lt_of_event {e : Event} (h : events[i]? = some e) : i < events.length :=
  (List.getElem?_eq_some_iff.mp h).1

private theorem event_append {e : Event} (h : events[i]? = some e) (later : List Event) :
    (events ++ later)[i]? = some e := by
  rw [List.getElem?_append_left (lt_of_event h), h]

private theorem Glances.All.mono {P Q : FileSystem → Prop} {g : Glances} (h : g.All P)
    (hpq : ∀ files, P files → Q files) : g.All Q :=
  ⟨hpq _ h.config, hpq _ h.authorities, hpq _ h.certFile, hpq _ h.keyFile, hpq _ h.engineCertFile,
    hpq _ h.engineKeyFile⟩

private theorem Glances.all_of {P : FileSystem → Prop} {seen : List FileSystem}
    (hseen : ∀ files ∈ seen, P files) (hnow : P files) : (Glances.of seen files).All P := by
  have hread (n : Nat) : P (seen[n]?.getD files) := by
    cases hn : seen[n]? with
    | none => exact hnow
    | some earlier => exact hseen _ (List.mem_of_getElem? hn)
  exact ⟨hread 0, hread 1, hread 2, hread 3, hread 4, hread 5⟩

private theorem Between.append (h : Between fs events i m files) (hm : m ≤ events.length)
    (later : List Event) : Between fs (events ++ later) i m files := by
  obtain ⟨j, hi, hj, rfl⟩ := h
  exact ⟨j, hi, hj, by rw [List.take_append_of_le_length (Nat.le_trans hj hm)]⟩

private theorem between_now (hi : i < events.length) :
    Between fs events i events.length (filesAt fs events) :=
  ⟨events.length, hi, Nat.le_refl _, by rw [List.take_length]⟩

private theorem OnReads.imp {P Q : Glances → Prop} (h : OnReads fs events i k P)
    (hpq : ∀ g, P g → Q g) : OnReads fs events i k Q := by
  obtain ⟨m, g, hm, hg, hP⟩ := h
  exact ⟨m, g, hm, hg, hpq g hP⟩

private theorem OnReads.append {P : Glances → Prop} (h : OnReads fs events i k P)
    (later : List Event) : OnReads fs (events ++ later) i k P := by
  obtain ⟨m, g, hm, hg, hP⟩ := h
  exact ⟨m, g, event_append hm later,
    hg.mono fun files hfiles => hfiles.append (Nat.le_of_lt (lt_of_event hm)) later, hP⟩

end Moments

private theorem Job.look_arrival (job : Job ε τ) (files : FileSystem) :
    (job.look files).arrival = job.arrival := by
  unfold Job.look
  split <;> rfl

/-! ## The account of a connection -/

section Accounts

variable [Yaml.Room] [Pki.KeyLibrary] (stack : Stack ε) (handler : Handler ε τ)
variable (protocols? : Option (List String)) (source : PolicySource) (fs : FileSystem)

/-- How a connection has come to its stage: by the reads for its context, and what the gate made of
them. -/
inductive Job.Accounts (events : List Event) (i k : Nat) : Job ε τ → Prop
  | asking {a : Arrival} {seen : List FileSystem}
      (looked : ∀ files ∈ seen, Between fs events i events.length files) :
      Accounts events i k ⟨a, [], .asking source seen⟩
  | greeting {a : Arrival} {records : List Log.Record} {context : Context}
      (asked : OnReads fs events i k fun g =>
        source.contextAt g protocols? = (records, .ok context)) :
      Accounts events i k ⟨a, records, .greeting context⟩
  | given {a : Arrival} {records : List Log.Record} {channel : Channel ε} (passed : Nat)
      (asked : OnReads fs events i k fun g =>
        source.passAt stack protocols? g a = ⟨records, .ok channel⟩) :
      Accounts events i k ⟨a, records, .given (passed + 1) channel⟩
  | ended {a : Arrival} {records : List Log.Record} {visit : Visit ε τ} (passed : Nat) (state : τ)
      (asked : OnReads fs events i k fun g =>
        visit = (source.passAt stack protocols? g a).visit stack handler a passed state) :
      Accounts events i k ⟨a, records, .ended visit⟩

variable {stack handler protocols? source fs} {events : List Event} {i k : Nat} {job : Job ε τ}
variable {w : World τ}

theorem Job.Accounts.append (h : job.Accounts stack handler protocols? source fs events i k)
    (later : List Event) :
    job.Accounts stack handler protocols? source fs (events ++ later) i k := by
  cases h with
  | asking looked =>
    refine .asking fun files hfiles => ?_
    obtain ⟨j, hi, hj, hsame⟩ := (looked files hfiles).append (Nat.le_refl _) later
    exact ⟨j, hi, Nat.le_trans hj (by simp), hsame⟩
  | greeting asked => exact .greeting (asked.append later)
  | given passed asked => exact .given passed (asked.append later)
  | ended passed state asked => exact .ended passed state (asked.append later)

theorem Job.Accounts.look (h : job.Accounts stack handler protocols? source fs events i k)
    (hi : i < events.length) :
    (job.look (filesAt fs events)).Accounts stack handler protocols? source fs events i k := by
  cases h with
  | asking looked =>
    refine .asking fun files hfiles => ?_
    rcases List.mem_append.mp hfiles with hfiles | hfiles
    · exact looked files hfiles
    · obtain rfl := List.mem_singleton.mp hfiles
      exact between_now hi
  | greeting asked => exact .greeting asked
  | given passed asked => exact .given passed asked
  | ended passed state asked => exact .ended passed state asked

variable (stack handler protocols?) in
private theorem Job.advance_frame (job : Job ε τ) (w : World τ) :
    (job.advance stack handler protocols? w).1.arrival = job.arrival ∧
      (job.advance stack handler protocols? w).2.fs = w.fs := by
  unfold Job.advance
  split
  · split <;> exact ⟨rfl, rfl⟩
  · split <;> exact ⟨rfl, rfl⟩
  · exact ⟨rfl, rfl⟩
  · exact ⟨rfl, rfl⟩

theorem Job.Accounts.advance (h : job.Accounts stack handler protocols? source fs events i k)
    (hi : i < events.length) (hnow : w.fs = filesAt fs events) :
    (job.advance stack handler protocols? w).1.Accounts stack handler protocols? source fs
      (events ++ [.advance k]) i k := by
  have hevent : (events ++ [.advance k])[events.length]? = some (.advance k) := by simp
  cases h with
  | @asking a seen looked =>
    -- the reads that are still to come are done now
    have hall : (Glances.of seen w.fs).All (Between fs (events ++ [.advance k]) i events.length) :=
      (Glances.all_of looked (hnow ▸ between_now hi)).mono fun files hfiles =>
        hfiles.append (Nat.le_refl _) _
    rcases hcontext : source.contextAt (.of seen w.fs) protocols? with ⟨records, e | context⟩
    · have hpass : source.passAt stack protocols? (.of seen w.fs) a =
          ⟨records, .error (.context e, a.transport)⟩ := by
        simp only [PolicySource.passAt, hcontext]
      simp only [Job.advance, hcontext, Job.refuse]
      exact .ended w.passed w.state ⟨_, _, hevent, hall,
        (congrArg (·.visit stack handler a w.passed w.state) hpass).symm⟩
    · simp only [Job.advance, hcontext]
      exact .greeting ⟨_, _, hevent, hall, hcontext⟩
  | @greeting a records context asked =>
    obtain ⟨m, g, hm, hall, hcontext⟩ := asked.append [.advance k]
    rcases hwrap : stack.wrap context a.offer a.transport with ⟨_ | fault, channel⟩
    · have hpass : source.passAt stack protocols? g a = ⟨records, .ok channel⟩ := by
        simp only [PolicySource.passAt, hcontext, hwrap]
      simp only [Job.advance, hwrap]
      exact .given w.passed ⟨m, g, hm, hall, hpass⟩
    · have hpass : source.passAt stack protocols? g a =
          ⟨records, .error (.handshake fault, channel.transport)⟩ := by
        simp only [PolicySource.passAt, hcontext, hwrap]
      simp only [Job.advance, hwrap, Job.refuse]
      exact .ended w.passed w.state ⟨m, g, hm, hall,
        (congrArg (·.visit stack handler a w.passed w.state) hpass).symm⟩
  | @given a records channel passed asked =>
    obtain ⟨m, g, hm, hall, hpass⟩ := asked.append [.advance k]
    exact .ended passed w.state ⟨m, g, hm, hall,
      (congrArg (·.visit stack handler a passed w.state) hpass).symm⟩
  | ended passed state asked => exact .ended passed state (asked.append _)

/-! ## Runs -/

variable (stack handler protocols? source fs) in
/-- A server after events: the files are those of the moment unless the process has exited, and each
connection is accounted for. -/
structure Site.Accounts (events : List Event) (s : Site ε τ) : Prop where
  files : s.exits = false → s.world.fs = filesAt fs events
  jobs : ∀ k (job : Job ε τ), s.jobs[k]? = some job →
    ∃ i, events[i]? = some (.arrival job.arrival) ∧
      job.Accounts stack handler protocols? source fs events i k

variable {s : Site ε τ}

private theorem Site.Accounts.kept (h : s.Accounts stack handler protocols? source fs events)
    (e : Event) {n : Nat} {job : Job ε τ} (hjob : s.jobs[n]? = some job) :
    ∃ i, (events ++ [e])[i]? = some (.arrival job.arrival) ∧
      job.Accounts stack handler protocols? source fs (events ++ [e]) i n := by
  obtain ⟨i, hi, haccount⟩ := h.jobs n job hjob
  exact ⟨i, event_append hi _, haccount.append _⟩

private theorem Site.Accounts.accepted (h : s.Accounts stack handler protocols? source fs events)
    (a : Arrival) {n : Nat} {job : Job ε τ}
    (hjob : (s.jobs ++ [⟨a, [], .asking source []⟩])[n]? = some job) :
    ∃ i, (events ++ [.arrival a])[i]? = some (.arrival job.arrival) ∧
      job.Accounts stack handler protocols? source fs (events ++ [.arrival a]) i n := by
  rcases Nat.lt_or_ge n s.jobs.length with hn | hn
  · rw [List.getElem?_append_left hn] at hjob
    exact h.kept _ hjob
  · rw [List.getElem?_append_right hn, List.getElem?_singleton] at hjob
    split at hjob
    · obtain rfl := Option.some.inj hjob
      exact ⟨events.length, by simp, .asking nofun⟩
    · cases hjob

private theorem Site.Accounts.looked (h : s.Accounts stack handler protocols? source fs events)
    (hnow : s.world.fs = filesAt fs events) (k : Nat) {n : Nat} {job : Job ε τ}
    (hjob : (s.jobs.modify k (Job.look s.world.fs))[n]? = some job) :
    ∃ i, (events ++ [.look k])[i]? = some (.arrival job.arrival) ∧
      job.Accounts stack handler protocols? source fs (events ++ [.look k]) i n := by
  rw [List.getElem?_modify] at hjob
  obtain ⟨before, hbefore, rfl⟩ := Option.map_eq_some_iff.mp hjob
  split
  · obtain ⟨i, hi, haccount⟩ := h.jobs n before hbefore
    have hlook := (haccount.look (lt_of_event hi)).append [.look k]
    exact ⟨i, by rw [event_append hi, Job.look_arrival], hnow ▸ hlook⟩
  · exact h.kept _ hbefore

private theorem Site.Accounts.advanced (h : s.Accounts stack handler protocols? source fs events)
    (hnow : s.world.fs = filesAt fs events) {k n : Nat} {before job : Job ε τ}
    (hbefore : s.jobs[k]? = some before)
    (hjob : (s.jobs.set k (before.advance stack handler protocols? s.world).1)[n]? = some job) :
    ∃ i, (events ++ [.advance k])[i]? = some (.arrival job.arrival) ∧
      job.Accounts stack handler protocols? source fs (events ++ [.advance k]) i n := by
  rw [List.getElem?_set] at hjob
  split at hjob
  · rename_i hk
    subst hk
    split at hjob
    · obtain rfl := Option.some.inj hjob
      obtain ⟨i, hi, haccount⟩ := h.jobs k before hbefore
      have harrival := (before.advance_frame stack handler protocols? s.world).1
      exact ⟨i, by rw [event_append hi, harrival], haccount.advance (lt_of_event hi) hnow⟩
    · cases hjob
  · exact h.kept _ hjob

theorem Site.Accounts.next (h : s.Accounts stack handler protocols? source fs events)
    (e : Event) :
    (s.next stack handler protocols? (.secured source) e).Accounts stack handler protocols? source
      fs (events ++ [e]) := by
  unfold Site.next
  split
  · rename_i hexits
    exact ⟨fun hruns => absurd hexits (by simp [hruns]), fun k job hjob => h.kept e hjob⟩
  · rename_i hruns
    have hnow : s.world.fs = filesAt fs events := h.files (Bool.eq_false_iff.mpr hruns)
    have hfiles : filesAt fs (events ++ [e]) = filesAt s.world.fs [e] := by
      rw [hnow, filesAt, filesAt, List.foldl_append]
      rfl
    cases e with
    | arrival a => exact ⟨fun _ => hfiles.symm, fun k job hjob => h.accepted a hjob⟩
    | look k => exact ⟨fun _ => hfiles.symm, fun n job hjob => h.looked hnow k hjob⟩
    | advance k =>
      dsimp only
      split
      · exact ⟨fun _ => hfiles.symm, fun n job hjob => h.kept _ hjob⟩
      · rename_i before hbefore
        have hframe := before.advance_frame stack handler protocols? s.world
        exact ⟨fun _ => hframe.2.trans hfiles.symm, fun n job hjob => h.advanced hnow hbefore hjob⟩
    | edit e => exact ⟨fun _ => hfiles.symm, fun k job hjob => h.kept _ hjob⟩
    | setPolicy options =>
      obtain ⟨-, hfs, -⟩ :=
        step_setPolicy stack handler protocols? (.secured source) s.world options
      exact ⟨fun _ => hfs.trans hfiles.symm, fun k job hjob => h.kept _ hjob⟩

theorem Site.Accounts.start {w : World τ} (h : w.fs = fs) :
    Site.Accounts stack handler protocols? source fs [] (⟨w, []⟩ : Site ε τ) :=
  ⟨fun _ => h, fun k job hjob => by simp at hjob⟩

theorem Site.Accounts.run (h : s.Accounts stack handler protocols? source fs events)
    (later : List Event) :
    (later.foldl (Site.next stack handler protocols? (.secured source)) s).Accounts stack handler
      protocols? source fs (events ++ later) := by
  induction later generalizing s events with
  | nil => simpa using h
  | cons e later ih =>
    rw [List.foldl_cons, List.append_cons]
    exact ih (h.next e)

end Accounts

/-! ## The part of the handler -/

/-- An event makes the handler act if a connection that it has been given ends. -/
def Site.Acts (s : Site ε τ) (e : Event) : Prop :=
  ∃ k job number channel,
    e = .advance k ∧ s.jobs[k]? = some job ∧ job.stage = .given number channel

private theorem visit?_of_stage {job : Job ε τ} {visit : Visit ε τ} (h : job.stage = .ended visit) :
    job.visit? = some visit := by
  simp only [Job.visit?, h]

private theorem stage_of_visit? {job : Job ε τ} {visit : Visit ε τ} (h : job.visit? = some visit) :
    job.stage = .ended visit := by
  unfold Job.visit? at h
  split at h
  · rename_i hstage
    rw [hstage, Option.some.inj h]
  · cases h

private theorem exits_append {jobs : List (Job ε τ)} (w w' : World τ)
    (h : Site.exits ⟨w, jobs⟩ = false) (job : Job ε τ) :
    Site.exits ⟨w', jobs ++ [job]⟩ = job.visit?.any Visit.exits := by
  have hothers : jobs.any (fun job => job.visit?.any Visit.exits) = false := h
  simp [Site.exits, hothers]

section Serial

variable [Yaml.Room] [Pki.KeyLibrary] (stack : Stack ε) (handler : Handler ε τ)
variable (protocols? : Option (List String)) (gate : Gate)

private theorem Job.advance_of_not_given (job : Job ε τ) (w : World τ)
    (h : ∀ number channel, job.stage ≠ .given number channel) (handler' : Handler ε τ) :
    job.advance stack handler' protocols? w = job.advance stack handler protocols? w ∧
      (job.advance stack handler protocols? w).2.state = w.state := by
  unfold Job.advance
  split
  · split <;> exact ⟨rfl, rfl⟩
  · split <;> exact ⟨rfl, rfl⟩
  · rename_i number channel hstage
    exact absurd hstage (h number channel)
  · exact ⟨rfl, rfl⟩

private theorem Site.next_of_not_acts {s : Site ε τ} {e : Event} (h : ¬ s.Acts e)
    (handler' : Handler ε τ) :
    s.next stack handler' protocols? gate e = s.next stack handler protocols? gate e ∧
      (s.next stack handler protocols? gate e).world.state = s.world.state := by
  unfold Site.next
  split
  · exact ⟨rfl, rfl⟩
  · cases e with
    | arrival a => cases gate <;> exact ⟨rfl, rfl⟩
    | look k => exact ⟨rfl, rfl⟩
    | advance k =>
      dsimp only
      split
      · exact ⟨rfl, rfl⟩
      · rename_i job hjob
        have hidle (number : Nat) (channel : Channel ε) : job.stage ≠ .given number channel :=
          fun hstage => h ⟨k, job, number, channel, rfl, hjob, hstage⟩
        obtain ⟨hsame, hstate⟩ :=
          job.advance_of_not_given stack handler protocols? s.world hidle handler'
        exact ⟨by rw [hsame], hstate⟩
    | edit e => exact ⟨rfl, rfl⟩
    | setPolicy options =>
      exact ⟨rfl, (step_setPolicy stack handler protocols? gate s.world options).2.2.2⟩

/-! ## Connections one after the other -/

/-- Steps as events: each connection is over before anything else happens. -/
def serially : Nat → List Step → List Event
  | _, [] => []
  | k, .arrival a :: rest =>
    .arrival a :: .advance k :: .advance k :: .advance k :: serially (k + 1) rest
  | k, .edit e :: rest => .edit e :: serially k rest
  | k, .setPolicy options :: rest => .setPolicy options :: serially k rest

private theorem advance_twice (source : PolicySource) (a : Arrival) (w : World τ) :
    let p := source.passAt stack protocols? (.of [] w.fs) a
    let asking : Job ε τ := ⟨a, [], .asking source []⟩
    let once := asking.advance stack handler protocols? w
    let twice := once.1.advance stack handler protocols? once.2
    (∃ refusal transport, p.result = .error (refusal, transport) ∧ twice =
        (⟨a, p.records, .ended (p.visit stack handler a w.passed w.state)⟩, w)) ∨
      ∃ channel, p.result = .ok channel ∧
        twice = (⟨a, p.records, .given (w.passed + 1) channel⟩, w.count) := by
  intro p asking once twice
  rcases hcontext : source.contextAt (.of [] w.fs) protocols? with ⟨records, e | context⟩
  · have hpass : p = ⟨records, .error (.context e, a.transport)⟩ := by
      simp only [p, PolicySource.passAt, hcontext]
    have honce : once = (⟨a, records, .ended (p.visit stack handler a w.passed w.state)⟩, w) := by
      rw [hpass]
      simp only [once, asking, Job.advance, hcontext]
      rfl
    exact .inl ⟨_, _, by rw [hpass], by simp only [twice, honce, Job.advance, hpass]⟩
  · have honce : once = (⟨a, records, .greeting context⟩, w) := by
      simp only [once, asking, Job.advance, hcontext]
    rcases hwrap : stack.wrap context a.offer a.transport with ⟨_ | fault, channel⟩
    · have hpass : p = ⟨records, .ok channel⟩ := by
        simp only [p, PolicySource.passAt, hcontext, hwrap]
      exact .inr ⟨channel, by rw [hpass], by simp only [twice, honce, Job.advance, hwrap, hpass]⟩
    · have hpass : p = ⟨records, .error (.handshake fault, channel.transport)⟩ := by
        simp only [p, PolicySource.passAt, hcontext, hwrap]
      refine .inl ⟨_, _, by rw [hpass], ?_⟩
      simp only [twice, honce, Job.advance, hwrap, hpass]
      rfl

private theorem advance_thrice (a : Arrival) (w : World τ) :
    let visit := receive stack handler protocols? gate w.fs w.passed w.state a
    let accepted : Job ε τ × World τ := Job.accept gate a w
    let once := accepted.1.advance stack handler protocols? accepted.2
    let twice := once.1.advance stack handler protocols? once.2
    let thrice := twice.1.advance stack handler protocols? twice.2
    thrice.1.stage = .ended visit ∧
      thrice.2 = { w with passed := visit.passed, state := visit.state } := by
  cases gate with
  | clear =>
    intro visit
    have hpassed : visit.passed = w.passed + 1 := handle_passed ..
    exact ⟨rfl, by rw [hpassed]; rfl⟩
  | secured source =>
    intro visit accepted once twice thrice
    have hvisit : visit = (source.passAt stack protocols? (.of [] w.fs) a).visit stack handler a
        w.passed w.state := (receive_eq_visit ..).trans (by rw [pass_eq_passAt]; rfl)
    obtain ⟨refusal, transport, hresult, htwice⟩ | ⟨channel, hresult, htwice⟩ :=
      advance_twice stack handler protocols? source a w
    · rw [visit_of_error hresult] at hvisit htwice
      have hthrice : thrice = twice := by
        simp only [thrice, show twice = _ from htwice, Job.advance]
      rw [hthrice, show twice = _ from htwice, hvisit]
      exact ⟨rfl, rfl⟩
    · have hgiven : (thrice.1.stage, thrice.2) =
          (.ended visit, { w.count with state := visit.state }) := by
        simp only [thrice, show twice = _ from htwice, Job.advance, hvisit, Passage.visit, hresult]
        rfl
      have hpassed : visit.passed = w.passed + 1 := by
        rw [hvisit, Passage.visit, hresult]
        exact handle_passed ..
      rw [hpassed]
      exact Prod.mk.inj hgiven

private theorem next_advance_last {jobs : List (Job ε τ)} {w : World τ}
    (h : Site.exits ⟨w, jobs⟩ = false) (job : Job ε τ) (w' : World τ) :
    Site.next stack handler protocols? gate ⟨w', jobs ++ [job]⟩ (.advance jobs.length) =
      ⟨(job.advance stack handler protocols? w').2,
        jobs ++ [(job.advance stack handler protocols? w').1]⟩ := by
  unfold Site.next
  rw [exits_append w w' h]
  split
  · -- a connection that makes the process exit is over
    rename_i hexits
    obtain ⟨visit, hvisit, -⟩ := (Option.any_eq_true _ _).mp hexits
    have hover := stage_of_visit? hvisit
    simp only [Job.advance, hover]
  · simp

private theorem foldl_next_of_exits {s : Site ε τ} (h : s.exits = true) (events : List Event) :
    events.foldl (Site.next stack handler protocols? gate) s = s := by
  induction events with
  | nil => rfl
  | cons e events ih =>
    have hnext : s.next stack handler protocols? gate e = s := by
      unfold Site.next
      rw [if_pos h]
    rw [List.foldl_cons, hnext, ih]

private theorem run_of_quiet {w : World τ} {s : Step}
    (h : (step stack handler protocols? gate w s).1.visit? = none) (rest : List Step) :
    (run stack handler protocols? gate (s :: rest) w).2 =
      (run stack handler protocols? gate rest (step stack handler protocols? gate w s).2).2 := by
  rw [run]
  simp only [h, Option.map_none, Option.getD_none, Bool.false_eq_true, if_false]

private theorem foldl_serially_arrival {s : Site ε τ} (hruns : s.exits = false) (a : Arrival)
    (rest : List Step) :
    ∃ job : Job ε τ, job.stage = .ended (receive stack handler protocols? gate s.world.fs
        s.world.passed s.world.state a) ∧
      (serially s.jobs.length (.arrival a :: rest)).foldl
          (Site.next stack handler protocols? gate) s =
        (serially (s.jobs.length + 1) rest).foldl (Site.next stack handler protocols? gate)
          ⟨(step stack handler protocols? gate s.world (.arrival a)).2, s.jobs ++ [job]⟩ := by
  obtain ⟨hstage, hworld⟩ := advance_thrice stack handler protocols? gate a s.world
  have haccept : s.next stack handler protocols? gate (.arrival a) =
      ⟨(Job.accept gate a s.world : Job ε τ × World τ).2,
        s.jobs ++ [(Job.accept gate a s.world : Job ε τ × World τ).1]⟩ := by
    unfold Site.next
    rw [if_neg (by simp [hruns])]
  refine ⟨_, hstage, ?_⟩
  simp only [serially, List.foldl_cons, haccept,
    next_advance_last stack handler protocols? gate hruns, hworld]
  rfl

private theorem run_serially (steps : List Step) {s : Site ε τ} (hruns : s.exits = false) :
    ((serially s.jobs.length steps).foldl (Site.next stack handler protocols? gate) s).world =
        (run stack handler protocols? gate steps s.world).2 ∧
      ((serially s.jobs.length steps).foldl (Site.next stack handler protocols? gate) s).jobs.map
          Job.stage =
        s.jobs.map Job.stage ++
          ((run stack handler protocols? gate steps s.world).1.filterMap (·.visit?)).map
            Stage.ended := by
  induction steps generalizing s with
  | nil => exact ⟨rfl, (List.append_nil _).symm⟩
  | cons first rest ih =>
    cases first with
    | arrival a =>
      obtain ⟨job, hstage, hfold⟩ :=
        foldl_serially_arrival stack handler protocols? gate hruns a rest
      have hexits := exits_append s.world
        (step stack handler protocols? gate s.world (.arrival a)).2 hruns job
      rw [visit?_of_stage hstage] at hexits
      rw [hfold, run]
      dsimp only [step, Option.map_some, Option.getD_some] at hexits ⊢
      split
      · rename_i hend
        rw [foldl_next_of_exits stack handler protocols? gate (hexits.trans hend)]
        exact ⟨rfl, by simp [hstage]⟩
      · rename_i hgoes
        have hlater := ih (hexits.trans (Bool.eq_false_iff.mpr hgoes))
        rw [List.length_append] at hlater
        refine ⟨hlater.1, hlater.2.trans ?_⟩
        simp [hstage]
    | edit e =>
      have hedit : s.next stack handler protocols? gate (.edit e) =
          { s with world := (step stack handler protocols? gate s.world (.edit e)).2 } := by
        unfold Site.next
        rw [if_neg (by simp [hruns])]
        rfl
      have hquiet : (step stack handler protocols? gate s.world (.edit e)).1.visit? = none := rfl
      rw [run_of_quiet _ _ _ _ hquiet, run_visits_of_quiet _ _ _ _ hquiet, serially,
        List.foldl_cons, hedit]
      exact ih hruns
    | setPolicy options =>
      have hset : s.next stack handler protocols? gate (.setPolicy options) =
          { s with
            world := (step stack handler protocols? gate s.world (.setPolicy options)).2 } := by
        unfold Site.next
        rw [if_neg (by simp [hruns])]
      have hquiet := (step_setPolicy stack handler protocols? gate s.world options).1
      rw [run_of_quiet _ _ _ _ hquiet, run_visits_of_quiet _ _ _ _ hquiet, serially,
        List.foldl_cons, hset]
      exact ih hruns

private theorem History.of_serially (network : Network) (fs : FileSystem) (settings : Settings)
    (mode : Mode) (state : τ) (steps : List Step) :
    let history := History.of stack handler network fs settings mode state steps
    let site := Site.of stack handler network fs settings mode state (serially 0 steps)
    site.world = history.final ∧
      site.jobs.map Job.stage = (history.reports.filterMap (·.visit?)).map Stage.ended := by
  simp only [History.of, Site.of]
  cases (Server.start network fs settings mode).result with
  | error e => exact ⟨rfl, rfl⟩
  | ok listening =>
    have hruns : Site.exits (⟨⟨fs, (Server.start network fs settings mode).settings, 0, state⟩,
        []⟩ : Site ε τ) = false := rfl
    exact run_serially stack handler settings.protocols? listening.gate steps hruns

end Serial

/-! ## Failing closed -/

private theorem Site.accounts_of [Yaml.Room] [Pki.KeyLibrary] {stack : Stack ε}
    {handler : Handler ε τ}
    {network : Network} {fs : FileSystem} {settings : Settings} {path : Str} {state : τ}
    (hpath : path ≠ "") (events : List Event) {k : Nat} {job : Job ε τ}
    (hjob : (Site.of stack handler network fs settings (.configured (some path)) state
      events).jobs[k]? = some job) :
    ∃ i, events[i]? = some (.arrival job.arrival) ∧
      job.Accounts stack handler settings.protocols? (.loaded path) fs events i k := by
  simp only [Site.of] at hjob
  split at hjob
  · cases hjob
  · rename_i listening hstart
    rw [start_gate hpath hstart] at hjob
    exact ((Site.Accounts.start rfl).run events).jobs k job hjob

theorem Job.Accounts.secured [Yaml.Room] [Pki.KeyLibrary] {stack : Stack ε}
    {handler : Handler ε τ} {protocols? : Option (List String)} {path : Str} {fs : FileSystem}
    {events : List Event} {i k : Nat} {job : Job ε τ}
    (h : job.Accounts stack handler protocols? (.loaded path) fs events i k) {channel : Channel ε}
    (hgiven : job.given? = some channel) :
    OnReads fs events i k fun g => ∃ policy context,
      Secures stack protocols? path g job.arrival policy context channel := by
  have hsecures {g : Glances} {a : Arrival}
      (hpass : ((PolicySource.loaded path).passAt stack protocols? g a).result = .ok channel) :
      ∃ policy context, Secures stack protocols? path g a policy context channel := by
    obtain ⟨policy, context, hload, hmade, hwrap⟩ := (passAt_eq_ok_iff channel).mp hpass
    exact ⟨policy, context, hload, hmade, hwrap⟩
  cases h with
  | asking looked => cases hgiven
  | greeting asked => cases hgiven
  | given passed asked =>
    obtain rfl := Option.some.inj hgiven
    exact asked.imp fun g hpass => hsecures (by rw [hpass])
  | ended passed state asked =>
    refine asked.imp fun g hvisit => hsecures ?_
    have hsome := (congrArg Visit.given? hvisit).symm.trans hgiven
    exact (visit_given_iff _ channel).mp hsome

/-- A server that is started with a configuration file fails closed. If connections come one after
the other, each is treated on the files of its moment, whatever steps came before, and the handler
has no part in one that it is not given. If they overlap, the handler is given a connection only if
it is secured by reads of the files between its arrival and its handshake; each connection that is
over was treated on what these reads saw; and no event makes the handler act but the end of a
connection that it has been given. Nothing that is received or sent on the stream of a secured
connection gets around the engine. -/
theorem given_iff_secured [Yaml.Room] [Pki.KeyLibrary] (stack : Stack ε) (handler : Handler ε τ)
    (network : Network) (fs : FileSystem) (settings : Settings) (path : Str) (state : τ)
    (hpath : path ≠ "") :
    let gate := Gate.secured (.loaded path)
    let mode := Mode.configured (some path)
    let first : World τ := ⟨fs, (start network fs settings mode).settings, 0, state⟩
    (∀ (steps : List Step) (i : Nat) (report : Report ε τ) (visit : Visit ε τ),
      (History.of stack handler network fs settings mode state steps).reports[i]? = some report →
      report.visit? = some visit →
        let before := worldAfter stack handler settings.protocols? gate first (steps.take i)
        ∃ a, steps[i]? = some (.arrival a) ∧
          visit.FailsClosed stack handler settings.protocols? path
            (.at (filesAfter fs (steps.take i))) a ∧
          (visit.given? = none → visit.passed = before.passed ∧ visit.state = before.state ∧
            ∀ handler', receive stack handler' settings.protocols? gate before.fs before.passed
              before.state a = visit)) ∧
    (∀ events : List Event,
      let site := Site.of stack handler network fs settings mode state events
      (∀ k job, site.jobs[k]? = some job →
        ∃ i, events[i]? = some (.arrival job.arrival) ∧
          (∀ channel, job.given? = some channel → OnReads fs events i k fun g =>
            ∃ policy context,
              Secures stack settings.protocols? path g job.arrival policy context channel) ∧
          ∀ visit, job.visit? = some visit → OnReads fs events i k fun g =>
            visit.FailsClosed stack handler settings.protocols? path g job.arrival) ∧
      ∀ e, ¬ site.Acts e → ∀ handler',
        site.next stack handler' settings.protocols? gate e =
            site.next stack handler settings.protocols? gate e ∧
          (site.next stack handler settings.protocols? gate e).world.state = site.world.state) ∧
    ∀ (g : Glances) (a : Arrival) (policy : SecurityPolicy) (context : Context)
      (channel : Channel ε), Secures stack settings.protocols? path g a policy context channel →
        ∀ reached, channel.Uses stack.engine reached →
          reached.IsSealed stack.engine (stack.start context a.offer) a.transport.output := by
  intro gate mode first
  refine ⟨fun steps i report visit hreport hvisit =>
    report_failsClosed stack handler network fs settings path state steps i report visit hpath
      hreport hvisit, fun events => ⟨fun k job hjob => ?_, fun e hidle handler' =>
        Site.next_of_not_acts stack handler settings.protocols? gate hidle handler'⟩,
    fun g a policy context channel h reached huses => h.isSealed huses⟩
  obtain ⟨i, hi, haccount⟩ := Site.accounts_of hpath events hjob
  refine ⟨i, hi, fun channel hgiven => haccount.secured hgiven, fun visit hover => ?_⟩
  cases haccount with
  | asking looked => cases hover
  | greeting asked => cases hover
  | given passed asked => cases hover
  | ended passed state asked =>
    obtain rfl := Option.some.inj hover
    exact asked.imp fun g hvisit => hvisit ▸ visit_failsClosed

local instance overlapRoom : Yaml.Room := .ofCalls 960

local instance overlapKeys : Pki.KeyLibrary := .standard

/-- Two connections. The configuration file is removed while the first one is in its handshake, and
the second one is accepted before that. -/
def overlappingEvents : List Event :=
  [.arrival { transport := {} }, .look 0, .advance 0, .arrival { transport := {} },
    .edit (.remove (Bytes.ofString "tls.yaml")), .advance 0, .advance 1, .advance 0]

def emptyConfigured : FileSystem := ({} : FileSystem).write (Bytes.ofString "tls.yaml") (.file [])

def countingHandler : Handler Unit Nat where
  handle _ channel served := ⟨[], .ok (), channel, served + 1⟩

def overlappingSite : Site Unit Nat :=
  Site.of readyStack countingHandler {} emptyConfigured {} (.configured (some "tls.yaml")) 0
    overlappingEvents

/-- The first connection is given to the handler, as its reads were done before the removal, and the
second one is refused. -/
theorem given_iff_secured_overlapping :
    ("tls.yaml" : Str) ≠ "" ∧
    (∃ job, overlappingSite.jobs[0]? = some job ∧ job.given?.isSome ∧
      ∃ i, OnReads emptyConfigured overlappingEvents i 0 fun g => ∃ policy context channel,
        Secures readyStack none "tls.yaml" g job.arrival policy context channel) ∧
    ∃ job, overlappingSite.jobs[1]? = some job ∧ job.given? = none ∧
      ∃ i, OnReads emptyConfigured overlappingEvents i 1 fun g => ∀ policy context channel,
        ¬ Secures readyStack none "tls.yaml" g job.arrival policy context channel := by
  have hpath : ("tls.yaml" : Str) ≠ "" := by decide
  obtain ⟨-, hoverlapping, -⟩ :=
    given_iff_secured readyStack countingHandler {} emptyConfigured {} "tls.yaml" 0 hpath
  obtain ⟨haccounts, -⟩ := hoverlapping overlappingEvents
  have hfirst : (overlappingSite.jobs[0]?.bind Job.given?).isSome = true := by decide +kernel
  have hsecond :
      ((overlappingSite.jobs[1]?.bind Job.visit?).map (·.given?.isSome)) = some false := by
    decide +kernel
  refine ⟨hpath, ?_, ?_⟩
  · obtain ⟨channel, hchannel⟩ := Option.isSome_iff_exists.mp hfirst
    obtain ⟨job, hjob, hgiven⟩ := Option.bind_eq_some_iff.mp hchannel
    obtain ⟨i, -, hsecured, -⟩ := haccounts 0 job hjob
    obtain ⟨m, g, hm, hg, policy, context, hsecures⟩ := hsecured channel hgiven
    exact ⟨job, hjob, by rw [hgiven]; rfl, i, m, g, hm, hg, policy, context, channel, hsecures⟩
  · obtain ⟨visit, hvisit, hrefused⟩ := Option.map_eq_some_iff.mp hsecond
    obtain ⟨job, hjob, hover⟩ := Option.bind_eq_some_iff.mp hvisit
    have hgiven : visit.given? = none := by simpa using hrefused
    obtain ⟨i, -, -, hcloses⟩ := haccounts 1 job hjob
    obtain ⟨m, g, hm, hg, hclosed⟩ := hcloses visit hover
    refine ⟨job, hjob, ?_, i, m, g, hm, hg, fun policy context channel hsecures => ?_⟩
    · rw [Job.given?, stage_of_visit? hover]
      exact hgiven
    · have hsome := (hclosed.given channel).mpr ⟨policy, context, hsecures⟩
      rw [hgiven] at hsome
      cases hsome

end TlsGate.Server
