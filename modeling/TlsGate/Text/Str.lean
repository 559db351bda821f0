import TlsGate.Bytes
import TlsGate.Text.Quoted

/-!
Texts as sequences of code points. An escape can write a surrogate that has no other one beside it;
such a text has no UTF-8 form, but it can be compared and quoted, and the surrogates that stand for
bytes in the names of files can be encoded again.
-/

set_option autoImplicit false
set_option relaxedAutoImplicit false

namespace TlsGate

inductive CodePoint where
  | char (c : Char)
  | surrogate (n : Fin 2048)
  deriving DecidableEq, Repr

namespace CodePoint

def ofNat? (n : Nat) : Option CodePoint :=
  if 0x10FFFF < n then none
  else if h : 0xD800 ≤ n ∧ n ≤ 0xDFFF then some (.surrogate ⟨n - 0xD800, by omega⟩)
  else some (.char (Char.ofNat n))

def char? : CodePoint → Option Char
  | char c => some c
  | surrogate _ => none

/-- The bytes of a code point in the name of a file: UTF-8, and the byte that one of the surrogates
from U+DC80 to U+DCFF stands for. -/
def nameBytes? : CodePoint → Option Bytes
  | char c => some (String.utf8EncodeChar c)
  | surrogate n => if 0x480 ≤ n.val ∧ n.val < 0x500 then some [(n.val - 0x400).toUInt8] else none

end CodePoint

/-- A text in which surrogates may stand. -/
structure Str where
  points : List CodePoint := []
  deriving DecidableEq, Repr, Inhabited

namespace Str

def ofString (s : String) : Str := ⟨s.toList.map .char⟩

instance coeString : Coe String Str := ⟨ofString⟩

instance appendStr : Append Str := ⟨fun s t => ⟨s.points ++ t.points⟩⟩

@[simp] theorem ofString_inj {s t : String} : ofString s = ofString t ↔ s = t := by
  have hpoints (c d : Char) (h : CodePoint.char c = .char d) : c = d := CodePoint.char.inj h
  rw [ofString, ofString, Str.mk.injEq, List.map_inj_right hpoints, String.toList_inj]

theorem ofString_append (s t : String) : ofString (s ++ t) = ofString s ++ ofString t := by
  simp only [ofString, String.toList_append, List.map_append]
  rfl

def isEmpty (s : Str) : Bool := s.points.isEmpty

@[simp] theorem isEmpty_iff (s : Str) : s.isEmpty = true ↔ s = "" := by
  cases s
  simp [isEmpty, ofString]

def chars? (s : Str) : Option (List Char) := s.points.mapM CodePoint.char?

def string? (s : Str) : Option String := s.chars?.map String.ofList

def nameBytes? (s : Str) : Option Bytes := (s.points.mapM CodePoint.nameBytes?).map List.flatten

def quotedPoint (quote : Char) : CodePoint → List Char
  | .char c => Text.quotedChar quote c
  | .surrogate n => Text.codePointEscape (0xD800 + n.val)

def quoted (s : Str) : String :=
  let quote := Text.quoteOf (s.points.filterMap CodePoint.char?)
  String.ofList (quote :: (s.points.flatMap (quotedPoint quote) ++ [quote]))

end Str

end TlsGate
