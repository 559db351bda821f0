import TlsGate.Bytes
import TlsGate.Tls.Negotiation

/-!
Records: how messages of a connection follow each other on the wire. A record has a header with its
kind and length. Once the parties share keys, a record is sealed: it carries a tag that only they
can make, and the kind of what it holds is inside.
-/

set_option autoImplicit false
set_option relaxedAutoImplicit false

namespace TlsGate.Tls.Record

def most : Nat := 16384

def handshakeKind : UInt8 := 22

def alertKind : UInt8 := 21

def dataKind : UInt8 := 23

def tag : Bytes :=
  [0x9E, 0x37, 0x79, 0xB9, 0x7F, 0x4A, 0x7C, 0x15, 0xF3, 0x9C, 0xC0, 0x60, 0x5C, 0xED, 0xC8, 0x34]

def frame (kind : UInt8) (payload : Bytes) : Bytes :=
  kind :: 3 :: 3 :: (payload.length / 256).toUInt8 :: (payload.length % 256).toUInt8 :: payload

def sealed (kind : UInt8) (content : Bytes) : Bytes := frame dataKind (tag ++ kind :: content)

def ofData (data : Bytes) : Bytes := (Bytes.pieces (most - 1) data).flatMap (sealed dataKind)

def greeting : Bytes := 1 :: tag

def conclusion : Bytes := 20 :: tag

def hello : Bytes := frame handshakeKind greeting

def finished : Bytes := frame handshakeKind conclusion

def closure : Bytes := sealed alertKind [1, 0]

/-- What stands at the front of the bytes that have arrived. -/
inductive Found where
  | more
  | bad
  | record (kind : UInt8) (payload rest : Bytes)
  deriving DecidableEq, Repr

/-- The first record of the bytes that have arrived, if the kind and the minor version in its
header are such as `fits` says. -/
def first (fits : UInt8 → UInt8 → Bool) (slack : Nat) : Bytes → Found
  | kind :: major :: minor :: high :: low :: rest =>
    let length := 256 * high.toNat + low.toNat
    if major ≠ 3 || !fits kind minor || most + slack < length then .bad
    else if rest.length < length then .more
    else .record kind (rest.take length) (rest.drop length)
  | _ => .more

/-- The first record before the parties share keys; its kind is looked at when it is whole. -/
def firstPlain (input : Bytes) : Found := first (fun _ _ => true) 320 input

/-- The first sealed record. The older version looks at the kind only after the tag. -/
def firstSealed (v : Version) (input : Bytes) : Found :=
  match v with
  | .v12 => first (fun _ minor => minor == 3) 2048 input
  | .v13 => first (fun kind minor => kind == dataKind && minor == 3) 256 input

def unseal? (payload : Bytes) : Option (UInt8 × Bytes) :=
  if tag.isPrefixOf payload then
    match payload.drop tag.length with
    | kind :: content => some (kind, content)
    | [] => none
  else none

theorem first_length {fits : UInt8 → UInt8 → Bool} {slack : Nat} {input payload rest : Bytes}
    {kind : UInt8} (h : first fits slack input = .record kind payload rest) :
    rest.length < input.length := by
  unfold first at h
  split at h
  · simp only at h
    split at h
    · simp at h
    · split at h
      · simp at h
      · simp only [Found.record.injEq] at h
        rw [← h.2.2]
        simp only [List.length_drop, List.length_cons]
        omega
  · simp at h

def dataOf (sent : Bytes) : Bytes :=
  match _h : first (fun _ _ => true) 2048 sent with
  | .record _ payload rest =>
    (match unseal? payload with
      | some (kind, content) => if kind = dataKind then content else []
      | none => []) ++ dataOf rest
  | _ => []
termination_by sent.length
decreasing_by exact first_length _h

end TlsGate.Tls.Record
