import TlsGate.Proofs.Pki.Bundle
import TlsGate.Proofs.Pki.Nested

/-!
Damaged blocks in a file of trusted certificates. A block is damaged on its own if it has both
lines, something between them, and no unknown version. A block whose END line is missing, or follows
the BEGIN line at once, takes the blocks after it along, up to the next END line that is found; and
an unknown version ends the reading.
-/

set_option autoImplicit false
set_option relaxedAutoImplicit false

namespace TlsGate.Pki.TrustPool

open Config Log Text

/-! ## Blocks -/

/-- A block of a certificate: what follows its BEGIN line, and whether the END line is there. -/
structure Block where
  body : Bytes
  closed : Bool
  deriving DecidableEq, Repr

namespace Block

def text (b : Block) : Bytes := opening ++ b.body ++ if b.closed then closing ++ [10] else []

/-- What a block reads as by itself. -/
def reading (b : Block) : Reading :=
  if b.closed then Certificate.firstOfPem (opening ++ b.body ++ closing) else .error .malformed

/-- A block has its END line, but not right behind the BEGIN line. -/
def IsWhole (b : Block) : Prop := b.closed = true ∧ b.body ≠ []

instance (b : Block) : Decidable b.IsWhole := inferInstanceAs (Decidable (_ ∧ _))

/-- A block ends where it says: no END line begins in it before. What stands on its BEGIN line
behind the mark is no part of a header, and neither is a line that it breaks off in. -/
structure IsPlain (b : Block) : Prop where
  clear : IsClear closing (opening ++ b.body)
  first_line : 58 ∉ firstLine b.body
  last_line : b.closed = false → 58 ∉ lastLine b.body

private theorem IsPlain.clear_body {b : Block} (h : b.IsPlain) : IsClear closing b.body :=
  h.clear.of_suffix (List.suffix_append _ _)

def written (contents : Bytes) : Block := ⟨10 :: Pem.dataLines contents, true⟩

private theorem reading_written (contents : Bytes) :
    (written contents).reading = Certificate.ofDer contents := by
  rw [reading, written, if_pos rfl, Certificate.firstOfPem_dataLines]

private theorem isPlain_written (contents : Bytes) : (written contents).IsPlain := by
  refine ⟨?_, by simp [written, firstLine], fun h => by cases h⟩
  have hlined : IsLined (opening ++ [10]) := .inr (by decide)
  have hdata : IsClear closing (Pem.dataLines contents) :=
    isClear_of_not_mem (m := 45) Pem.dash_not_mem_dataLines
  exact hlined.isClear_append (by decide) (by decide) hdata

private theorem isWhole_written (contents : Bytes) : (written contents).IsWhole :=
  ⟨rfl, List.cons_ne_nil _ _⟩

end Block

def file (blocks : List Block) : Bytes := blocks.flatMap Block.text

private theorem file_torn (body : Bytes) (blocks : List Block) :
    file (⟨body, false⟩ :: blocks) = opening ++ body ++ file blocks := by
  simp [file, Block.text]

private theorem file_closed (body : Bytes) (blocks : List Block) :
    file (⟨body, true⟩ :: blocks) = opening ++ body ++ closing ++ ([10] ++ file blocks) := by
  simp [file, Block.text]

private theorem spans_file {before body : Bytes} (hbefore : IsClear opening before)
    (hbody : body ≠ [])
    (hclear : IsClear closing body.tail) (blocks : List Block) :
    spans (before ++ file (⟨body, true⟩ :: blocks)) =
      (opening ++ body ++ closing) :: spans ([10] ++ file blocks) := by
  rw [file_closed, ← spans_append hbefore hbody hclear]
  simp only [List.append_assoc]

private theorem isClear_line : IsClear opening [10] := isClear_of_not_mem (m := 45) (by decide)

/-- What the blocks of a file read as, after a block that has not ended or not: a block that has not
ended takes the blocks up to the next END line along. -/
def readings : Bool → List Block → List Reading
  | _, [] => []
  | _, ⟨_, false⟩ :: rest => readings true rest
  | true, ⟨_, true⟩ :: rest => .error .malformed :: readings false rest
  | false, ⟨body, true⟩ :: rest =>
    if body = [] then readings true rest
    else Certificate.firstOfPem (opening ++ body ++ closing) :: readings false rest

/-! ## Blocks that end by themselves -/

private theorem map_spans_of_whole {blocks : List Block} (hwhole : ∀ b ∈ blocks, b.IsWhole)
    (hbodies : ∀ b ∈ blocks, IsClear closing b.body) {before : Bytes}
    (hbefore : IsClear opening before) :
    (spans (before ++ file blocks)).map Certificate.firstOfPem = blocks.map Block.reading := by
  induction blocks generalizing before with
  | nil =>
    rw [file, List.flatMap_nil, List.append_nil, spans_of_no_opening hbefore.absent]
    rfl
  | cons b blocks ih =>
    have hafter := ih (fun p hp => hwhole p (List.mem_cons_of_mem b hp))
      (fun p hp => hbodies p (List.mem_cons_of_mem b hp)) isClear_line
    have hclear := (hbodies b List.mem_cons_self).of_suffix (List.tail_suffix _)
    obtain ⟨body, closed⟩ := b
    obtain ⟨rfl, hbody⟩ : closed = true ∧ body ≠ [] := hwhole _ List.mem_cons_self
    rw [spans_file hbefore hbody hclear, List.map_cons, hafter, List.map_cons]
    rfl

/-! ## Blocks that have not ended -/

theorem isClear_append {x y : Bytes} (hx : IsClear closing (opening ++ x))
    (hy : IsClear closing (opening ++ y)) : IsClear closing (opening ++ (x ++ opening ++ y)) := by
  intro hwithin
  have hassoc : opening ++ (x ++ opening ++ y) ++ closing.dropLast =
      opening ++ x ++ (opening ++ y ++ closing.dropLast) := by simp only [List.append_assoc]
  rw [hassoc] at hwithin
  rcases infix_append_cases hwithin with
    hin | hin | ⟨left, right, hsplit, hleft, -, hsuffix, hstart⟩
  · exact hx (hin.trans ⟨[], closing.dropLast, rfl⟩)
  · exact hy hin
  · -- What the BEGIN line can give to an END line is what an END line begins with.
    have hdashes : ∀ n < closing.length + 1, 0 < n → closing.drop n <+: opening →
        closing.drop n <+: closing.dropLast := by decide
    have hright : closing.drop left.length = right := by rw [hsplit, List.drop_left]
    have hlength : left.length + right.length = closing.length := by
      rw [hsplit, List.length_append]
    have hpos := List.length_pos_iff.mpr hleft
    have hopening : right <+: opening := by
      have hlong : closing.length ≤ opening.length := by decide
      rw [List.append_assoc] at hstart
      exact List.prefix_of_prefix_length_le hstart (List.prefix_append _ _) (by omega)
    obtain ⟨rest, hrest⟩ := hright ▸ hdashes left.length (by omega) hpos (hright ▸ hopening)
    obtain ⟨front, hfront⟩ := hsuffix
    refine hx ⟨front, rest, ?_⟩
    rw [← hrest, ← hfront, hsplit]
    simp only [List.append_assoc]

private theorem firstLine_append {x y : Bytes} (hx : 58 ∉ firstLine x) (hy : 58 ∉ firstLine y) :
    58 ∉ firstLine (x ++ opening ++ y) := by
  intro hmem
  have hopening : 58 ∉ firstLine opening := by decide
  rcases mem_firstLine_append hmem with hmem | hmem
  · exact (mem_firstLine_append hmem).elim hx hopening
  · exact hy hmem

/-- What follows an opening line whose closing line is not found before the next block: a body that
breaks off, or a closing line that follows at once, and perhaps more such blocks. -/
inductive Pending : Bytes → Prop
  | torn {x : Bytes} (clear : IsClear closing (opening ++ x)) (last_line : 58 ∉ lastLine x) :
      Pending x
  | empty : Pending (closing ++ [10])
  | more {held x : Bytes} (pending : Pending held) (clear : IsClear closing (opening ++ x))
      (first_line : 58 ∉ firstLine x) : Pending (held ++ opening ++ x)

theorem Pending.isClear {held x : Bytes} (h : Pending held) (hx : IsClear closing (opening ++ x)) :
    IsClear closing (held ++ opening ++ x).tail := by
  induction h generalizing x with
  | torn clear last_line =>
    exact ((isClear_append clear hx).of_suffix (List.suffix_append _ _)).of_suffix
      (List.tail_suffix _)
  | empty =>
    have hlined : IsLined (closing.tail ++ [10]) := .inr (by decide)
    have hafter := hlined.isClear_append (by decide) (by decide) hx
    rwa [← List.append_assoc] at hafter
  | more pending clear first_line ih =>
    simpa only [List.append_assoc] using ih (isClear_append clear hx)

theorem Pending.firstOfPem {held x : Bytes} (h : Pending held) (hx : IsClear closing (opening ++ x))
    (hline : 58 ∉ firstLine x) :
    Certificate.firstOfPem (opening ++ (held ++ opening ++ x) ++ closing) = .error .malformed := by
  induction h generalizing x with
  | torn clear last_line =>
    exact Certificate.firstOfPem_nested last_line hline
      ((isClear_append clear hx).of_suffix (List.suffix_append _ _))
  | empty =>
    have hafter := Certificate.firstOfPem_empty ([10] ++ opening ++ x ++ closing)
    simpa only [List.append_assoc] using hafter
  | more pending clear first_line ih =>
    simpa only [List.append_assoc] using
      ih (isClear_append clear hx) (firstLine_append first_line hline)

private theorem Pending.unended {held : Bytes} (h : Pending held) : ¬ closing <:+: held.tail := by
  intro hwithin
  have hempty : IsClear closing (opening ++ []) := by unfold IsClear; decide
  cases held with
  | nil => exact absurd hwithin (by decide)
  | cons b held =>
    refine h.isClear hempty (hwithin.trans ?_)
    simp only [List.cons_append, List.tail_cons, List.append_assoc]
    exact (List.prefix_append _ _).isInfix

private theorem map_spans {blocks : List Block} (hplain : ∀ b ∈ blocks, b.IsPlain) {before : Bytes}
    (hbefore : IsClear opening before) :
    (spans (before ++ file blocks)).map Certificate.firstOfPem = readings false blocks ∧
      ∀ held, Pending held →
        (spans (before ++ opening ++ (held ++ file blocks))).map Certificate.firstOfPem =
          readings true blocks := by
  induction blocks generalizing before with
  | nil =>
    simp only [file, List.flatMap_nil, List.append_nil, readings, List.map_eq_nil_iff]
    exact ⟨spans_of_no_opening hbefore.absent,
      fun held hheld => spans_of_no_closing hbefore hheld.unended⟩
  | cons b blocks ih =>
    obtain ⟨hclear, hfirst, hlast⟩ := hplain b List.mem_cons_self
    have hrest := fun p hp => hplain p (List.mem_cons_of_mem b hp)
    have hpending := (ih hrest hbefore).2
    have hafter := (ih hrest isClear_line).1
    obtain ⟨body, closed⟩ := b
    cases closed with
    | false =>
      -- What breaks off is pending from here on.
      rw [file_torn, readings, readings]
      refine ⟨?_, fun held hheld => ?_⟩
      · simpa only [List.append_assoc] using hpending body (.torn hclear (hlast rfl))
      · simpa only [List.append_assoc] using hpending _ (hheld.more hclear hfirst)
    | true =>
      rw [readings, readings]
      refine ⟨?_, fun held hheld => ?_⟩
      · split
        · rename_i hempty
          subst hempty
          simpa only [file_closed, List.append_assoc, List.nil_append] using hpending _ .empty
        · rename_i hbody
          have hbehind : IsClear closing body.tail := hclear.of_suffix
            ((List.tail_suffix _).trans (List.suffix_append _ _))
          rw [spans_file hbefore hbody hbehind, List.map_cons, hafter]
      · -- The END line of the block ends all that is pending.
        have hbody : held ++ opening ++ body ≠ [] := by simp [opening_ne_nil]
        have hspan := spans_file hbefore hbody (hheld.isClear hclear) blocks
        rw [← hafter, ← hheld.firstOfPem hclear hfirst, ← List.map_cons, ← hspan]
        simp only [file_closed, List.append_assoc]

/-! ## Damage that spreads -/

private theorem readings_of_whole {blocks : List Block} (h : ∀ b ∈ blocks, b.IsWhole) :
    readings false blocks = blocks.map Block.reading := by
  induction blocks with
  | nil => rfl
  | cons b blocks ih =>
    obtain ⟨body, closed⟩ := b
    obtain ⟨rfl, hbody⟩ : closed = true ∧ body ≠ [] := h _ List.mem_cons_self
    rw [readings, if_neg hbody, ih fun p hp => h p (List.mem_cons_of_mem _ hp), List.map_cons]
    rfl

private theorem length_readings_le (isOpen : Bool) (blocks : List Block) :
    (readings isOpen blocks).length ≤ blocks.length := by
  fun_induction readings isOpen blocks <;> simp only [List.length_cons, List.length_nil] <;> omega

private theorem whole_of_length_readings {blocks : List Block}
    (h : (readings false blocks).length = blocks.length) : ∀ b ∈ blocks, b.IsWhole := by
  induction blocks with
  | nil => simp
  | cons b blocks ih =>
    have hopen := length_readings_le true blocks
    obtain ⟨body, closed⟩ := b
    cases closed with
    | false =>
      rw [readings, List.length_cons] at h
      omega
    | true =>
      rw [readings, List.length_cons] at h
      split at h
      · omega
      · rename_i hbody
        rw [List.length_cons, Nat.add_right_cancel_iff] at h
        exact List.forall_mem_cons.mpr ⟨⟨rfl, hbody⟩, ih h⟩

private theorem length_eq_of_kept {path : Str} {xs ys : List Reading}
    (h : kept path xs = kept path ys) :
    xs.length = ys.length := by
  have hparts (readings : List Reading) : readings.length =
      (readings.filterMap Except.toOption).length + (readings.countP fun r => !r.isOk) := by
    rw [List.length_filterMap_eq_countP,
      List.length_eq_countP_add_countP fun r : Reading => r.toOption.isSome]
    congr 2
    funext r
    cases r <;> rfl
  obtain ⟨hrecords, hpools⟩ := Prod.mk.inj h
  have hwarnings := congrArg List.length hrecords
  rw [List.length_replicate, List.length_replicate] at hwarnings
  have hcertificates : xs.filterMap Except.toOption = ys.filterMap Except.toOption := by
    split at hpools <;> split at hpools <;> simp_all
  rw [hparts xs, hparts ys, hwarnings, hcertificates]

private theorem load_file {fs : FileSystem} {path : Str} {blocks : List Block}
    (hread : fs.read path = .ok (file blocks)) (hplain : ∀ b ∈ blocks, b.IsPlain) :
    load fs path = outcome path (readings false blocks) := by
  have hclear : IsClear opening [] := not_infix_dropLast opening_ne_nil
  rw [load_eq_outcome hread, ← (map_spans hplain hclear).1, List.nil_append]

private theorem load_whole {fs : FileSystem} {path : Str} {blocks : List Block}
    (hread : fs.read path = .ok (file blocks)) (hbodies : ∀ b ∈ blocks, IsClear closing b.body)
    (hwhole : ∀ b ∈ blocks, b.IsWhole ∧ b.reading ≠ .error .version) :
    load fs path = kept path (blocks.map Block.reading) := by
  have hclear : IsClear opening [] := not_infix_dropLast opening_ne_nil
  have hreadings := map_spans_of_whole (fun b hb => (hwhole b hb).1) hbodies hclear
  rw [List.nil_append] at hreadings
  rw [load_eq_outcome hread, hreadings, outcome, if_pos]
  refine List.all_eq_true.mpr fun r hr => ?_
  obtain ⟨b, hb, rfl⟩ := List.mem_map.mp hr
  exact isKnown_iff.mpr (hwhole b hb).2

/-- A damaged block of a file is told and left out, and the others are kept in their order, if all
of them are whole and none is of an unknown version. Otherwise it never comes out like that: a block
that has not ended counts as one damaged block with those after it up to the next END line, or is
passed over if there is none, and an unknown version is the failure of the whole file. -/
theorem load_blocks (fs : FileSystem) (path : Str) (blocks : List Block)
    (hread : fs.read path = .ok (file blocks)) (hbodies : ∀ b ∈ blocks, IsClear closing b.body) :
    ((∀ b ∈ blocks, b.IsWhole ∧ b.reading ≠ .error .version) →
        load fs path = kept path (blocks.map Block.reading)) ∧
      ((∀ b ∈ blocks, b.IsPlain) →
        load fs path = outcome path (readings false blocks) ∧
          (load fs path = kept path (blocks.map Block.reading) →
            ∀ b ∈ blocks, b.IsWhole ∧ b.reading ≠ .error .version)) := by
  refine ⟨load_whole hread hbodies, fun hplain => ?_⟩
  have hload := load_file hread hplain
  refine ⟨hload, fun h => ?_⟩
  rw [hload, outcome] at h
  split at h
  · rename_i hknown
    have hlength : (readings false blocks).length = blocks.length := by
      rw [length_eq_of_kept h, List.length_map]
    have hwhole := whole_of_length_readings hlength
    rw [readings_of_whole hwhole, List.all_map, List.all_eq_true] at hknown
    exact fun b hb => ⟨hwhole b hb, isKnown_iff.mp (hknown b hb)⟩
  · -- An unknown version is no failure that a file of blocks ought to have.
    have hresult := congrArg Prod.snd h
    simp only [kept] at hresult
    split at hresult <;> cases hresult

/-! ## Small files -/

def torn : Block := ⟨[10], false⟩

def garbled : Block := ⟨Bytes.ofString "\nnot base64\n", true⟩

def hollow : Block := ⟨[], true⟩

private theorem torn_isPlain : torn.IsPlain :=
  ⟨by unfold IsClear; decide, by decide, fun _ => by decide⟩

private theorem garbled_isPlain : garbled.IsPlain :=
  ⟨by unfold IsClear; decide +kernel, by decide, fun h => by cases h⟩

private theorem hollow_isPlain : hollow.IsPlain :=
  ⟨by unfold IsClear; decide, by decide, fun h => by cases h⟩

private theorem reading_garbled : garbled.reading = .error .malformed := by decide +kernel

private theorem reading_small : (Block.written (smallDer 2)).reading = .ok small := by
  rw [Block.reading_written]
  decide +kernel

private theorem readings_behind {b : Block} (h : b = torn ∨ b = hollow) :
    readings false [b, .written (smallDer 2), .written (smallDer 2)] =
      [.error .malformed, .ok small] := by
  have hwhole : ∀ b ∈ [Block.written (smallDer 2)], b.IsWhole := by simp [Block.isWhole_written]
  have hlast := readings_of_whole hwhole
  have hfirst : readings false [b, .written (smallDer 2), .written (smallDer 2)] =
      .error .malformed :: readings false [.written (smallDer 2)] := by
    rcases h with rfl | rfl <;> rfl
  rw [hfirst, hlast, List.map_cons, reading_small, List.map_nil]

def holding (blocks : List Block) : FileSystem :=
  ({} : FileSystem).write (Bytes.ofString "ca.pem") (.file (file blocks))

private theorem read_holding (blocks : List Block) :
    (holding blocks).read "ca.pem" = .ok (file blocks) := by
  with_unfolding_all rfl

/-- A damaged block between two others is told and left out; one that breaks off takes the next one
along. -/
theorem load_blocks_small :
    load (holding [.written (smallDer 2), garbled, .written (smallDer 2)]) "ca.pem" =
        ([skipped "ca.pem"], .ok ⟨[small, small]⟩) ∧
      load (holding [torn, .written (smallDer 2), .written (smallDer 2)]) "ca.pem" =
        ([skipped "ca.pem"], .ok ⟨[small]⟩) := by
  have hsmall := Block.isPlain_written (smallDer 2)
  have hwhole := Block.isWhole_written (smallDer 2)
  have hgarbled : garbled.IsWhole := by decide
  have hkept := (load_blocks _ "ca.pem" _
    (read_holding [.written (smallDer 2), garbled, .written (smallDer 2)])
    (by simp [hsmall.clear_body, garbled_isPlain.clear_body])).1
    (by simp [hwhole, reading_small, hgarbled, reading_garbled])
  have hspread := (load_blocks _ "ca.pem" _
    (read_holding [torn, .written (smallDer 2), .written (smallDer 2)])
    (by simp [hsmall.clear_body, torn_isPlain.clear_body])).2
    (by simp [hsmall, torn_isPlain])
  rw [hkept, hspread.1, readings_behind (.inl rfl)]
  simp only [List.map_cons, List.map_nil, reading_small, reading_garbled]
  exact ⟨rfl, rfl⟩

/-- What the blocks have to give, and what the file gives: nothing behind a block of an unknown
version, and one certificate of two behind one that breaks off or has nothing between its lines. -/
theorem damage_spreads :
    (kept "ca.pem" ([Block.written (smallDer 6), .written (smallDer 2)].map Block.reading) =
          ([skipped "ca.pem"], .ok ⟨[small]⟩) ∧
        load (holding [.written (smallDer 6), .written (smallDer 2)]) "ca.pem" =
          ([], .error .certificateVersion)) ∧
      (kept "ca.pem" ([torn, .written (smallDer 2), .written (smallDer 2)].map Block.reading) =
          ([skipped "ca.pem"], .ok ⟨[small, small]⟩) ∧
        load (holding [torn, .written (smallDer 2), .written (smallDer 2)]) "ca.pem" =
          ([skipped "ca.pem"], .ok ⟨[small]⟩)) ∧
      kept "ca.pem" ([hollow, .written (smallDer 2), .written (smallDer 2)].map Block.reading) =
          ([skipped "ca.pem"], .ok ⟨[small, small]⟩) ∧
        load (holding [hollow, .written (smallDer 2), .written (smallDer 2)]) "ca.pem" =
          ([skipped "ca.pem"], .ok ⟨[small]⟩) := by
  have hplain := Block.isPlain_written (smallDer 2)
  have hunknown : (Block.written (smallDer 6)).reading = .error .version := by
    rw [Block.reading_written]
    decide +kernel
  have hhollow : hollow.reading = .error .malformed := Certificate.firstOfPem_empty []
  have hversion := load_file (read_holding [.written (smallDer 6), .written (smallDer 2)])
    (by simp [hplain, Block.isPlain_written])
  have htorn := load_file (read_holding [torn, .written (smallDer 2), .written (smallDer 2)])
    (by simp [hplain, torn_isPlain])
  have hempty := load_file (read_holding [hollow, .written (smallDer 2), .written (smallDer 2)])
    (by simp [hplain, hollow_isPlain])
  have hwhole : ∀ b ∈ [Block.written (smallDer 6), .written (smallDer 2)], b.IsWhole := by
    simp [Block.isWhole_written]
  rw [hversion, htorn, hempty, readings_of_whole hwhole, readings_behind (.inl rfl),
    readings_behind (.inr rfl)]
  simp only [List.map_cons, List.map_nil, reading_small, hunknown, hhollow]
  exact ⟨⟨rfl, rfl⟩, ⟨rfl, rfl⟩, rfl, rfl⟩

end TlsGate.Pki.TrustPool
