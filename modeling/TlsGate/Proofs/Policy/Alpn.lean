import TlsGate.Proofs.Policy.Contexts

/-!
Which protocol is selected. An engine with a callback hands it the names that the client offers,
and the callback takes the first of the server that is among them. A verifying engine has both lists
in the form of handshake messages, where the length of each name goes before it, and looks through
the one for each name of the other. Both come to the first of the server's names that the client
offers.
-/

set_option autoImplicit false
set_option relaxedAutoImplicit false

namespace TlsGate.Policy.Alpn

/-! ## The first name that both lists have -/

/-- The client offers a name, and none that stands before it in the list of the server. -/
structure IsFirstShared (supported offered : List Bytes) (name : Bytes) : Prop where
  shared : name ∈ offered
  first : ∃ before after, supported = before ++ name :: after ∧ ∀ n ∈ before, n ∉ offered

variable {supported offered offered' : List Bytes} {name : Bytes}

theorem select_eq_some_iff :
    select supported offered = some name ↔ IsFirstShared supported offered name := by
  rw [select, List.find?_eq_some_iff_append]
  simp only [List.contains_iff_mem, Bool.not_eq_true', ← Bool.not_eq_true]
  constructor
  · rintro ⟨hshared, before, after, hsplit, hbefore⟩
    exact ⟨hshared, before, after, hsplit, hbefore⟩
  · rintro ⟨hshared, before, after, hsplit, hbefore⟩
    exact ⟨hshared, before, after, hsplit, hbefore⟩

private theorem select_eq_none_iff :
    select supported offered = none ↔ ∀ n ∈ supported, n ∉ offered := by
  simp only [select, List.find?_eq_none, List.contains_iff_mem]

theorem exists_select_iff :
    (∃ name, select supported offered = some name) ↔ ∃ name ∈ supported, name ∈ offered := by
  rw [← Option.isSome_iff_exists, ← Option.ne_none_iff_isSome, ne_eq, select_eq_none_iff]
  simp only [not_forall, not_not, exists_prop]

theorem select_congr (h : ∀ name, name ∈ offered' ↔ name ∈ offered) :
    select supported offered' = select supported offered := by
  have hcontains : offered'.contains = offered.contains := by
    funext name
    rw [Bool.eq_iff_iff, List.contains_iff_mem, List.contains_iff_mem, h name]
  rw [select, hcontains, select]

/-! ## Encoded lists -/

/-- A name that can stand in a handshake message. -/
structure IsWireName (name : Bytes) : Prop where
  nonempty : name ≠ []
  short : name.length ≤ 255

instance (name : Bytes) : Decidable (IsWireName name) :=
  decidable_of_iff (name ≠ [] ∧ name.length ≤ 255)
    ⟨fun ⟨nonempty, short⟩ => ⟨nonempty, short⟩, fun h => ⟨h.nonempty, h.short⟩⟩

theorem IsName.isWireName {name : String} (h : IsName name) : IsWireName (Bytes.ofString name) := by
  refine ⟨fun hempty => h.nonempty ?_, h.short⟩
  have hlength := Bytes.length_ofString h.ascii
  rw [hempty] at hlength
  exact String.length_eq_zero_iff.mp hlength.symm

def packed (names : List Bytes) : Bytes := names.flatMap fun name => name.length.toUInt8 :: name

/-- What is documented of a function that selects from two encoded lists: it goes through the names
of the server, selects the first that matches one of the client, and selects none if there is no
more. -/
structure SelectsNext (next : Bytes → Bytes → Option Bytes) : Prop where
  exhausted : ∀ offered, (∀ n ∈ offered, IsWireName n) → next (packed []) (packed offered) = none
  matched : ∀ name rest offered, IsWireName name → (∀ n ∈ rest, IsWireName n) →
    (∀ n ∈ offered, IsWireName n) → name ∈ offered →
      next (packed (name :: rest)) (packed offered) = some name
  passed : ∀ name rest offered, IsWireName name → (∀ n ∈ rest, IsWireName n) →
    (∀ n ∈ offered, IsWireName n) → name ∉ offered →
      next (packed (name :: rest)) (packed offered) = next (packed rest) (packed offered)

private theorem select_cons_of_mem (rest : List Bytes) (h : name ∈ offered) :
    select (name :: rest) offered = some name :=
  List.find?_cons_of_pos (List.contains_iff_mem.mpr h)

private theorem select_cons_of_not_mem (rest : List Bytes) (h : name ∉ offered) :
    select (name :: rest) offered = select rest offered :=
  List.find?_cons_of_neg (by rwa [List.contains_iff_mem])

theorem SelectsNext.eq_select {next : Bytes → Bytes → Option Bytes} (h : SelectsNext next)
    (hsupported : ∀ n ∈ supported, IsWireName n) (hoffered : ∀ n ∈ offered, IsWireName n) :
    next (packed supported) (packed offered) = select supported offered := by
  induction supported with
  | nil => exact h.exhausted offered hoffered
  | cons n rest ih =>
    obtain ⟨hn, hrest⟩ := List.forall_mem_cons.mp hsupported
    by_cases hmem : n ∈ offered
    · rw [h.matched n rest offered hn hrest hoffered hmem, select_cons_of_mem rest hmem]
    · rw [h.passed n rest offered hn hrest hoffered hmem, select_cons_of_not_mem rest hmem,
        ih hrest]

/-! ## Going through the bytes -/

def isAmong (name : Bytes) : Bytes → Bool
  | [] => false
  | size :: rest =>
    size.toNat ≤ rest.length &&
      (rest.take size.toNat == name || isAmong name (rest.drop size.toNat))
termination_by b => b.length
decreasing_by simp only [List.length_drop, List.length_cons]; omega

/-- The first name of an encoded list that is among those of another one. A name without bytes is
passed over. -/
def nextProtocol (supported offered : Bytes) : Option Bytes :=
  match supported with
  | [] => none
  | size :: rest =>
    if rest.length < size.toNat then none
    else if size ≠ 0 && isAmong (rest.take size.toNat) offered then some (rest.take size.toNat)
    else nextProtocol (rest.drop size.toNat) offered
termination_by supported.length
decreasing_by simp only [List.length_drop, List.length_cons]; omega

private theorem toNat_length_toUInt8 (h : name.length ≤ 255) :
    name.length.toUInt8.toNat = name.length := by
  rw [Nat.toUInt8_eq, UInt8.toNat_ofNat']
  omega

private theorem packed_cons (name : Bytes) (names : List Bytes) :
    packed (name :: names) = name.length.toUInt8 :: (name ++ packed names) := by
  simp only [packed, List.flatMap_cons, List.cons_append]

private theorem isAmong_packed (hoffered : ∀ n ∈ offered, IsWireName n) :
    isAmong name (packed offered) = offered.contains name := by
  induction offered with
  | nil => rw [packed, List.flatMap_nil, isAmong, List.contains_nil]
  | cons n rest ih =>
    obtain ⟨hn, hrest⟩ := List.forall_mem_cons.mp hoffered
    have hfits : n.length ≤ (n ++ packed rest).length := by simp
    rw [packed_cons, isAmong, toNat_length_toUInt8 hn.short, List.take_left, List.drop_left,
      ih hrest,
      decide_eq_true hfits, Bool.true_and, List.contains_cons, Bool.beq_comm]

private theorem nextProtocol_cons (hname : IsWireName name) (rest : List Bytes)
    (hoffered : ∀ n ∈ offered, IsWireName n) :
    nextProtocol (packed (name :: rest)) (packed offered) =
      if name ∈ offered then some name else nextProtocol (packed rest) (packed offered) := by
  have hsize := toNat_length_toUInt8 hname.short
  have hfits : ¬ (name ++ packed rest).length < name.length := by simp
  -- so the name is not passed over for want of bytes
  have hfilled : name.length.toUInt8 ≠ 0 := by
    intro hzero
    rw [hzero] at hsize
    exact hname.nonempty (List.length_eq_zero_iff.mp hsize.symm)
  rw [packed_cons, nextProtocol, hsize, List.take_left, List.drop_left, if_neg hfits,
    isAmong_packed hoffered, decide_eq_true hfilled, Bool.true_and]
  simp only [List.contains_iff_mem]

theorem selectsNext_nextProtocol : SelectsNext nextProtocol where
  exhausted offered _ := by rw [packed, List.flatMap_nil, nextProtocol]
  matched name rest offered hname _ hoffered hmem := by
    rw [nextProtocol_cons hname rest hoffered, if_pos hmem]
  passed name rest offered hname _ hoffered hmem := by
    rw [nextProtocol_cons hname rest hoffered, if_neg hmem]

end TlsGate.Policy.Alpn
