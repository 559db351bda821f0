import TlsGate.Http.Reading
import TlsGate.Proofs.Split

/-!
The parts that an input consists of. A line, a block of lines and a step of a body are decided by
the bytes that they take, so what has been found in a buffer is also found when more bytes follow;
only a piece of a body and the line end after it can be longer then. An input fits if no part whose
end is searched for in the buffer is longer than what may wait there.
-/

set_option autoImplicit false
set_option relaxedAutoImplicit false

namespace TlsGate.Http

open TlsGate.Text

/-! ## Parts that are decided by their bytes -/

def DecidedByPart {α : Type} (find : Bytes → Option (α × Bytes)) : Prop :=
  ∀ input a rest, find input = some (a, rest) →
    ∃ part, input = part ++ rest ∧ ∀ more, find (part ++ more) = some (a, more)

def foundLength {α : Type} (input : Bytes) (found : Option (α × Bytes)) : Nat :=
  found.elim 0 fun part => input.length - part.2.length

private theorem foundLength_le {α : Type} (input : Bytes) (found : Option (α × Bytes)) :
    foundLength input found ≤ input.length := by
  cases found with
  | none => exact Nat.zero_le _
  | some part => exact Nat.sub_le _ _

namespace DecidedByPart

variable {α : Type} {find : Bytes → Option (α × Bytes)} {b m rest : Bytes} {a : α}

theorem append (hf : DecidedByPart find) (h : find b = some (a, rest)) (m : Bytes) :
    find (b ++ m) = some (a, rest ++ m) := by
  obtain ⟨part, rfl, hpart⟩ := hf b a rest h
  rw [List.append_assoc]
  exact hpart (rest ++ m)

private theorem length_lt (hf : DecidedByPart find) (hnone : find b = none)
    (h : find (b ++ m) = some (a, rest)) : rest.length < m.length := by
  obtain ⟨part, heq, hpart⟩ := hf _ _ _ h
  by_cases hlt : rest.length < m.length
  · exact hlt
  · exfalso
    have hle : part.length ≤ b.length := by
      have := congrArg List.length heq
      simp only [List.length_append] at this
      omega
    obtain ⟨tail, htail⟩ := List.prefix_of_prefix_length_le
      (List.prefix_append part rest) (heq ▸ List.prefix_append b m) hle
    rw [← htail, hpart tail] at hnone
    simp at hnone

theorem none_append {most : Nat} (hf : DecidedByPart find) (hnone : find b = none)
    (hlong : most < b.length) (hfit : foundLength (b ++ m) (find (b ++ m)) ≤ most) :
    find (b ++ m) = none := by
  cases hfound : find (b ++ m) with
  | none => rfl
  | some found =>
    have hlt := hf.length_lt hnone hfound
    rw [hfound, foundLength, Option.elim_some, List.length_append] at hfit
    omega

end DecidedByPart

theorem takeLine_decided (passed : Bytes) : DecidedByPart (takeLine passed) := by
  intro input line rest h
  fun_induction takeLine passed input with
  | case1 => simp at h
  | case2 passed tail =>
    simp only [Option.some.injEq, Prod.mk.injEq] at h
    obtain ⟨rfl, rfl⟩ := h
    exact ⟨[13, 10], rfl, fun more => by simp [takeLine]⟩
  | case3 passed b tail hline ih =>
    obtain ⟨part, heq, hpart⟩ := ih h
    refine ⟨b :: part, by rw [heq, List.cons_append], fun more => ?_⟩
    -- the rest of the part is not empty, so it decides whether a line end stands here
    cases part with
    | nil => simpa [takeLine] using hpart []
    | cons c part =>
      rw [← hpart more]
      simp only [List.cons_append]
      rw [takeLine]
      intro after hb hafter
      simp only [List.cons.injEq] at hafter
      exact hline (part ++ rest) hb (by rw [heq, hafter.1, List.cons_append])

private theorem takeLines_cons {input line rest : Bytes}
    (h : cutFirst 10 input = (line, some rest)) :
    takeLines input =
      if stripReturn line = [] then some ([], rest)
      else (takeLines rest).map fun found => (stripReturn line :: found.1, found.2) := by
  rw [takeLines]
  split <;> rename_i hcut <;> rw [h] at hcut
  · simp at hcut
  · simp only [Option.some.injEq] at hcut
    subst hcut
    rw [h]

theorem takeLines_blank (rest : Bytes) : takeLines (13 :: 10 :: rest) = some ([], rest) := by
  have hcut := cutFirst_append (by decide : (10 : UInt8) ∉ [13]) rest
  simp only [List.singleton_append] at hcut
  rw [takeLines_cons hcut]
  rfl

theorem takeLines_line {line : Bytes} (hfeed : 10 ∉ line) (hne : line ≠ []) (rest : Bytes) :
    takeLines (line ++ 13 :: 10 :: rest) =
      (takeLines rest).map fun found => (line :: found.1, found.2) := by
  have hcut : cutFirst 10 (line ++ 13 :: 10 :: rest) = (line ++ [13], some rest) := by
    have hfeed' : 10 ∉ line ++ [13] := by simpa using hfeed
    simpa using cutFirst_append hfeed' rest
  have hstrip : stripReturn (line ++ [13]) = line := by simp [stripReturn]
  rw [takeLines_cons hcut, hstrip, if_neg hne]

theorem takeLines_flatMap {lines : List Bytes} (h : ∀ line ∈ lines, 10 ∉ line ∧ line ≠ [])
    (rest : Bytes) :
    takeLines (lines.flatMap (· ++ [13, 10]) ++ 13 :: 10 :: rest) = some (lines, rest) := by
  induction lines with
  | nil => exact takeLines_blank rest
  | cons line lines ih =>
    obtain ⟨hfeed, hne⟩ := h line List.mem_cons_self
    have hrest := ih fun l hl => h l (List.mem_cons_of_mem _ hl)
    have hline := takeLines_line hfeed hne (lines.flatMap (· ++ [13, 10]) ++ 13 :: 10 :: rest)
    rw [hrest] at hline
    simpa using hline

theorem takeLines_decided : DecidedByPart takeLines := by
  intro input lines rest h
  fun_induction takeLines input generalizing lines rest with
  | case1 => simp at h
  | case2 input after hcut line hline =>
    simp only [Option.some.injEq, Prod.mk.injEq] at h
    obtain ⟨rfl, rfl⟩ := h
    refine ⟨(cutFirst 10 input).1 ++ [10], by simpa using cutFirst_some (by rw [← hcut]), ?_⟩
    intro more
    have hmore := cutFirst_append (not_mem_cutFirst 10 input) more
    rw [List.append_assoc, List.singleton_append, takeLines_cons hmore, if_pos hline]
  | case3 input after hcut line hline ih =>
    obtain ⟨found, hfound, heq⟩ := Option.map_eq_some_iff.1 h
    simp only [Prod.mk.injEq] at heq
    obtain ⟨rfl, rfl⟩ := heq
    obtain ⟨part, hafter, hpart⟩ := ih found.1 found.2 hfound
    refine ⟨(cutFirst 10 input).1 ++ 10 :: part, ?_, fun more => ?_⟩
    · rw [List.append_assoc, List.cons_append, ← hafter]
      simpa using cutFirst_some (l := input) (by rw [← hcut])
    · have hmore := cutFirst_append (not_mem_cutFirst 10 input) (part ++ more)
      rw [List.append_assoc, List.cons_append, takeLines_cons hmore, if_neg hline, hpart more]
      rfl

/-! ## Steps of a body -/

namespace Decoder

inductive Step.Grows (m : Bytes) : Step → Step → Prop
  | piece {data rest : Bytes} {next : Decoder} :
      Grows m (.piece data rest next) (.piece data (rest ++ m) next)
  | longer {data data' rest' : Bytes} {next next' : Decoder} (hempty : next.step [] = .more)
      (h : next.step m = .piece data' rest' next') :
      Grows m (.piece data [] next) (.piece (data ++ data') rest' next')
  | passed {rest : Bytes} {next : Decoder} :
      Grows m (.passed rest next) (.passed (rest ++ m) next)
  | halfway : Grows m (.passed [] .chunkFeed) (Decoder.chunkFeed.step m)
  | complete {rest : Bytes} : Grows m (.complete rest) (.complete (rest ++ m))
  | broken {fault : Fault} : Grows m (.broken fault) (.broken fault)

private theorem counted_grows (missing : Nat) (b : UInt8) (tail m : Bytes) (hm : m ≠ []) :
    Step.Grows m ((counted (missing + 1)).step (b :: tail))
      ((counted (missing + 1)).step (b :: tail ++ m)) := by
  obtain ⟨c, m, rfl⟩ := List.exists_cons_of_ne_nil hm
  simp only [step, List.cons_append]
  by_cases hle : missing ≤ tail.length
  · rw [List.take_append_of_le_length hle, List.drop_append_of_le_length hle]
    have hnext : missing - (tail ++ c :: m).length = missing - tail.length := by
      simp only [List.length_append, List.length_cons]
      omega
    rw [hnext]
    exact .piece
  · obtain ⟨more, hmore⟩ : ∃ more, missing = tail.length + (more + 1) :=
      ⟨missing - tail.length - 1, by omega⟩
    subst hmore
    have hnext : tail.length + (more + 1) - tail.length = more + 1 := by omega
    rw [List.take_of_length_le (by omega), List.drop_of_length_le (by omega), hnext,
      List.take_length_add_append, List.drop_length_add_append]
    refine .longer rfl ?_
    simp only [step, List.take_succ_cons, List.drop_succ_cons]
    congr 1
    simp only [List.length_append, List.length_cons]
    congr 1
    omega

private theorem chunk_grows (others : Nat) (b : UInt8) (tail m : Bytes) (hm : m ≠ []) :
    Step.Grows m ((chunk others).step (b :: tail)) ((chunk others).step (b :: tail ++ m)) := by
  obtain ⟨c, m, rfl⟩ := List.exists_cons_of_ne_nil hm
  simp only [step, List.cons_append]
  by_cases hle : others ≤ tail.length
  · have hle' : others ≤ (tail ++ c :: m).length := by
      simp only [List.length_append]
      omega
    rw [List.take_append_of_le_length hle, List.drop_append_of_le_length hle, if_pos hle,
      if_pos hle']
    exact .piece
  · obtain ⟨more, hmore⟩ : ∃ more, others = tail.length + (more + 1) :=
      ⟨others - tail.length - 1, by omega⟩
    subst hmore
    have hnext : tail.length + (more + 1) - tail.length - 1 = more := by omega
    rw [if_neg hle, hnext, List.take_of_length_le (by omega), List.drop_of_length_le (by omega),
      List.take_length_add_append, List.drop_length_add_append]
    refine .longer rfl ?_
    simp only [step, List.take_succ_cons, List.drop_succ_cons]
    congr 1
    simp only [List.length_append, List.length_cons]
    by_cases hmore : more ≤ m.length
    · rw [if_pos hmore, if_pos (by omega)]
    · rw [if_neg hmore, if_neg (by omega)]
      congr 1
      omega

private theorem chunkEnd_grows (b : UInt8) (tail m : Bytes) (hm : m ≠ []) :
    Step.Grows m (chunkEnd.step (b :: tail)) (chunkEnd.step (b :: tail ++ m)) := by
  by_cases hb : b = 13
  · subst hb
    cases tail with
    | nil =>
      have heq : chunkEnd.step (13 :: m) = chunkFeed.step m := by
        obtain ⟨c, m, rfl⟩ := List.exists_cons_of_ne_nil hm
        by_cases hc : c = 10 <;> simp [step, hc]
      rw [List.singleton_append, heq]
      exact .halfway
    | cons c tail =>
      by_cases hc : c = 10
      · subst hc
        exact .passed
      · have hbroken (after : Bytes) : chunkEnd.step (13 :: c :: after) = .broken .chunkEnd := by
          simp [step, hc]
        rw [List.cons_append, List.cons_append, hbroken, hbroken]
        exact .broken
  · have hbroken (after : Bytes) : chunkEnd.step (b :: after) = .broken .chunkEnd := by
      simp [step, hb]
    rw [List.cons_append, hbroken, hbroken]
    exact .broken

private theorem step_append (d : Decoder) {buffer m : Bytes} (hm : m ≠ [])
    (hd : d.step buffer ≠ .more) : Step.Grows m (d.step buffer) (d.step (buffer ++ m)) := by
  cases d with
  | counted missing =>
    cases missing with
    | zero => exact .complete
    | succ missing =>
      cases buffer with
      | nil => exact absurd rfl hd
      | cons b tail => exact counted_grows missing b tail m hm
  | size =>
    cases hline : takeLine [] buffer with
    | none => exact absurd (by simp only [step, hline]) hd
    | some found =>
      obtain ⟨line, rest⟩ := found
      simp only [step, hline, (takeLine_decided []).append hline m]
      split
      · exact .broken
      · exact .passed
      · exact .passed
  | chunk others =>
    cases buffer with
    | nil => exact absurd rfl hd
    | cons b tail => exact chunk_grows others b tail m hm
  | chunkEnd =>
    cases buffer with
    | nil => exact absurd rfl hd
    | cons b tail => exact chunkEnd_grows b tail m hm
  | chunkFeed =>
    cases buffer with
    | nil => exact absurd rfl hd
    | cons b tail =>
      by_cases hb : b = 10
      · subst hb
        exact .passed
      · have hbroken (after : Bytes) : chunkFeed.step (b :: after) = .broken .chunkEnd := by
          simp [step, hb]
        rw [List.cons_append, hbroken, hbroken]
        exact .broken
  | trailers =>
    cases hlines : takeLines buffer with
    | none => exact absurd (by simp only [step, hlines]) hd
    | some found =>
      obtain ⟨lines, rest⟩ := found
      simp only [step, hlines, takeLines_decided.append hlines m]
      split
      · exact .complete
      · exact .broken

theorem exists_grows {d : Decoder} {buffer m : Bytes} {found : Step} (hm : m ≠ [])
    (h : d.step buffer = found) (hne : found ≠ .more) :
    ∃ grown, d.step (buffer ++ m) = grown ∧ Step.Grows m found grown :=
  ⟨d.step (buffer ++ m), rfl, h ▸ d.step_append hm (h ▸ hne)⟩

theorem step_complete_length {d : Decoder} {buffer rest : Bytes}
    (h : d.step buffer = .complete rest) : rest.length ≤ buffer.length := by
  cases d with
  | counted missing =>
    cases missing with
    | zero =>
      cases h
      exact Nat.le_refl _
    | succ missing => cases buffer <;> cases h
  | chunk others => cases buffer <;> cases h
  | trailers =>
    simp only [step] at h
    split at h
    · cases h
    · rename_i hlines
      split at h
      · cases h
        exact Nat.le_of_lt (takeLines_length hlines)
      · cases h
  | size =>
    simp only [step] at h
    split at h
    · cases h
    · split at h <;> cases h
  | chunkEnd =>
    simp only [step] at h
    split at h <;> cases h
  | chunkFeed =>
    simp only [step] at h
    split at h <;> cases h

end Decoder

/-! ## Parts that wait for their end -/

/-- A place in the input: before a head, or in a body. -/
inductive Place where
  | head
  | body (decoder : Decoder)
  deriving DecidableEq, Repr

namespace Place

def advance : Place → (input : Bytes) → Option (Place × Bytes)
  | head, input =>
    match takeLines input with
    | none => none
    | some (lines, rest) =>
      match Head.parse lines with
      | .error _ => none
      | .ok start => some (body (Decoder.start (framingOf start.fields)), rest)
  | body decoder, input =>
    match decoder.step input with
    | .more => none
    | .piece _ rest next => some (body next, rest)
    | .passed rest next => some (body next, rest)
    | .complete rest => some (head, rest)
    | .broken _ => none

def partLength : Place → (input : Bytes) → Nat
  | head, input => foundLength input (takeLines input)
  | body .size, input => foundLength input (takeLine [] input)
  | body .trailers, input => foundLength input (takeLines input)
  | body _, _ => 0

/-- Reading the input from a place comes to another place and the input there. -/
inductive Reaches : Place → Bytes → Place → Bytes → Prop
  | here {p : Place} {input : Bytes} : Reaches p input p input
  | onward {p q r : Place} {input rest last : Bytes} (ha : p.advance input = some (q, rest))
      (hr : Reaches q rest r last) : Reaches p input r last

/-- No head, chunk size line or trailer section of the input is longer than what may wait. -/
def Fits (p : Place) (input : Bytes) : Prop :=
  ∀ q rest, Reaches p input q rest → q.partLength rest ≤ maxIncomplete

namespace Fits

variable {p q : Place} {input rest : Bytes}

theorem part (h : p.Fits input) : p.partLength input ≤ maxIncomplete := h p input .here

theorem advance (h : p.Fits input) (ha : p.advance input = some (q, rest)) : q.Fits rest :=
  fun r last hr => h r last (.onward ha hr)

theorem of_advance (hp : p.partLength input ≤ maxIncomplete)
    (h : ∀ q rest, p.advance input = some (q, rest) → q.Fits rest) : p.Fits input := by
  intro r last hr
  cases hr with
  | here => exact hp
  | onward ha hr => exact h _ _ ha r last hr

end Fits

private theorem advance_length {p q : Place} {input rest : Bytes}
    (h : p.advance input = some (q, rest)) : rest.length ≤ input.length := by
  cases p with
  | head =>
    simp only [advance] at h
    split at h
    · cases h
    · rename_i hlines
      split at h
      · cases h
      · cases h
        exact Nat.le_of_lt (takeLines_length hlines)
  | body d =>
    simp only [advance] at h
    split at h <;> rename_i hstep <;> cases h
    · exact Nat.le_of_lt (Decoder.step_piece_length hstep)
    · exact Nat.le_of_lt (Decoder.step_passed_length hstep)
    · exact Decoder.step_complete_length hstep

private theorem partLength_le (p : Place) (input : Bytes) : p.partLength input ≤ input.length := by
  unfold partLength
  split
  · exact foundLength_le _ _
  · exact foundLength_le _ _
  · exact foundLength_le _ _
  · exact Nat.zero_le _

theorem fits_of_length {p : Place} {input : Bytes} (h : input.length ≤ maxIncomplete) :
    p.Fits input := by
  intro q rest hr
  have hle : rest.length ≤ input.length := by
    clear h
    induction hr with
    | here => exact Nat.le_refl _
    | onward ha _ ih => exact Nat.le_trans ih (advance_length ha)
  exact Nat.le_trans (partLength_le q rest) (Nat.le_trans hle h)

end Place

end TlsGate.Http
