import TlsGate.Files
import TlsGate.Proofs.Utf8

/-!
Texts with surrogates. One without any is a text of characters; and one is the path of a file if
each of its code points stands for bytes. A path that has a surrogate for no byte, or a NUL
character, is refused before anything is looked up, and nothing that is looked up gives the same
faults.
-/

set_option autoImplicit false
set_option relaxedAutoImplicit false

namespace TlsGate

namespace Str

/-! ## Texts of characters -/

private theorem points_of_chars {points : List CodePoint} {chars : List Char}
    (h : points.mapM CodePoint.char? = some chars) : points = chars.map .char := by
  induction points generalizing chars with
  | nil =>
    obtain rfl := Option.some.inj h
    rfl
  | cons p points ih =>
    cases p with
    | surrogate n => cases h
    | char c =>
      rw [List.mapM_cons] at h
      simp only [CodePoint.char?, Option.bind_eq_bind, Option.bind_some,
        Option.bind_eq_some_iff] at h
      obtain ⟨rest, hrest, h⟩ := h
      obtain rfl := Option.some.inj h
      rw [ih hrest]
      rfl

private theorem chars_of_points (chars : List Char) :
    (chars.map CodePoint.char).mapM CodePoint.char? = some chars := by
  induction chars with
  | nil => rfl
  | cons c chars ih =>
    rw [List.map_cons, List.mapM_cons, ih]
    rfl

theorem string?_eq_some_iff {s : Str} {t : String} : s.string? = some t ↔ s = t := by
  constructor
  · intro h
    obtain ⟨chars, hchars, rfl⟩ := Option.map_eq_some_iff.mp h
    refine congrArg Str.mk ?_
    rw [points_of_chars hchars, String.toList_ofList]
  · rintro rfl
    rw [string?, chars?, ofString, chars_of_points, Option.map_some, String.ofList_toList]

/-! ## Paths -/

variable {s : Str}

def IsEncodable (s : Str) : Prop := ∀ p ∈ s.points, p.nameBytes?.isSome

def HasNul (s : Str) : Prop := .char '\x00' ∈ s.points

instance (s : Str) : Decidable s.IsEncodable :=
  inferInstanceAs (Decidable (∀ p ∈ s.points, p.nameBytes?.isSome))

instance (s : Str) : Decidable s.HasNul :=
  inferInstanceAs (Decidable (CodePoint.char '\x00' ∈ s.points))

private theorem zero_mem_nameBytes {p : CodePoint} {bytes : Bytes} (h : p.nameBytes? = some bytes) :
    0 ∈ bytes ↔ p = .char '\x00' := by
  cases p with
  | char c =>
    obtain rfl := Option.some.inj h
    rcases Bytes.utf8EncodeChar_cases c with ⟨b, hb, rfl⟩ | habove
    · rw [Bytes.utf8EncodeChar_asciiChar b hb, List.mem_singleton, CodePoint.char.injEq]
      constructor
      · rintro rfl
        rfl
      · revert b
        exact Bytes.forall_byte (by decide +kernel)
    · have hnot : 0 ∉ String.utf8EncodeChar c := fun hmem => habove 0 hmem (by decide)
      simp only [hnot, CodePoint.char.injEq, false_iff]
      rintro rfl
      exact hnot (by decide)
  | surrogate n =>
    simp only [CodePoint.nameBytes?] at h
    split at h
    · rename_i hrange
      obtain rfl := Option.some.inj h
      simp only [List.mem_singleton, reduceCtorEq, iff_false]
      intro hzero
      have hnumber := congrArg UInt8.toNat hzero
      simp only [UInt8.toNat_zero, Nat.toUInt8_eq, UInt8.toNat_ofNat'] at hnumber
      omega
    · cases h

private theorem pieces_of_points {points : List CodePoint} :
    (points.mapM CodePoint.nameBytes? = none ↔ ∃ p ∈ points, p.nameBytes? = none) ∧
      ∀ pieces, points.mapM CodePoint.nameBytes? = some pieces →
        (0 ∈ pieces.flatten ↔ CodePoint.char '\x00' ∈ points) := by
  induction points with
  | nil => simp
  | cons p points ih =>
    obtain ⟨hnone, hzero⟩ := ih
    rw [List.mapM_cons]
    cases hp : p.nameBytes? with
    | none => simp [hp]
    | some bytes =>
      cases hrest : points.mapM CodePoint.nameBytes? with
      | none => simp [hp, hnone.mp hrest]
      | some pieces =>
        have hpresent : ¬ ∃ q ∈ points, q.nameBytes? = none := by
          rw [← hnone, hrest]
          simp
        refine ⟨by simpa [hp] using hpresent, fun found hfound => ?_⟩
        obtain rfl := Option.some.inj hfound
        simp [zero_mem_nameBytes hp, hzero pieces hrest, eq_comm]

private theorem nameBytes?_eq_none_iff : s.nameBytes? = none ↔ ¬ s.IsEncodable := by
  simp [nameBytes?, IsEncodable, pieces_of_points.1]

private theorem zero_mem_iff {name : Bytes} (h : s.nameBytes? = some name) :
    0 ∈ name ↔ s.HasNul := by
  obtain ⟨pieces, hpieces, rfl⟩ := Option.map_eq_some_iff.mp h
  exact pieces_of_points.2 pieces hpieces

end Str

namespace FileSystem

variable {fs : FileSystem} {path : Str}

private theorem enter_refusal (fs : FileSystem) (place : Location) (name : Bytes) :
    fs.enter place name ≠ .error .nulInPath ∧ fs.enter place name ≠ .error .unencodable := by
  unfold enter
  split
  · split
    · simp
    · split
      · simp
      · split
        · simp
        · dsimp only
          split <;> simp
  · simp
  · simp

private theorem foldlM_enter_refusal (fs : FileSystem) (names : List Bytes) (place : Location) :
    names.foldlM fs.enter place ≠ .error .nulInPath ∧
      names.foldlM fs.enter place ≠ .error .unencodable := by
  induction names generalizing place with
  | nil => simp [pure, Except.pure]
  | cons name names ih =>
    have hstep := enter_refusal fs place name
    cases hnext : fs.enter place name with
    | error fault =>
      rw [hnext] at hstep
      simpa [List.foldlM_cons, hnext, bind, Except.bind] using hstep
    | ok next => simpa [List.foldlM_cons, hnext, bind, Except.bind] using ih next

private theorem resolve_refusal :
    (fs.resolve path = .error .nulInPath ↔ path.IsEncodable ∧ path.HasNul) ∧
      (fs.resolve path = .error .unencodable ↔ ¬ path.IsEncodable) := by
  unfold resolve
  cases hname : path.nameBytes? with
  | none => simp [Str.nameBytes?_eq_none_iff.mp hname]
  | some name =>
    have hencodable : path.IsEncodable := Decidable.not_not.mp fun hnot => by
      simp [Str.nameBytes?_eq_none_iff.mpr hnot] at hname
    simp only [hencodable, true_and, not_true_eq_false, iff_false, ← Str.zero_mem_iff hname]
    by_cases hnul : 0 ∈ name
    · simp [hnul]
    · have hfold := foldlM_enter_refusal fs (components name) (fs.base name)
      simp only [List.contains_eq_mem, hnul, decide_false, Bool.false_eq_true, if_false, iff_false]
      split
      · simp
      · split
        · simp
        · exact hfold

private theorem read_refusal {fault : FileFault}
    (h : fault = .nulInPath ∨ fault = .unencodable) :
    fs.read path = .error fault ↔ fs.resolve path = .error fault := by
  unfold read
  cases fs.resolve path with
  | error found => simp [bind, Except.bind]
  | ok place =>
    simp only [bind, Except.bind, reduceCtorEq, iff_false]
    rcases h with rfl | rfl <;> split <;> simp [pure, Except.pure, throw, throwThe,
      MonadExceptOf.throw]

theorem read_eq_nul_iff : fs.read path = .error .nulInPath ↔ path.IsEncodable ∧ path.HasNul :=
  (read_refusal (.inl rfl)).trans resolve_refusal.1

theorem read_eq_unencodable_iff : fs.read path = .error .unencodable ↔ ¬ path.IsEncodable :=
  (read_refusal (.inr rfl)).trans resolve_refusal.2

end FileSystem

end TlsGate
