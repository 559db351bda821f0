import Mathlib.Data.List.Basic
import TlsGate.Config.Schema

/-!
The schema of configuration documents. A document is a value whose mappings hold no key twice. Which
documents are configurations, what they configure and which of their keys are warned about is said
here of the document as a whole, by looking keys up; reading it entry by entry comes to the same. A
document that fits the schema is refused all the same if one of its keys is too large an integer to
be printed in a warning.
-/

set_option autoImplicit false
set_option relaxedAutoImplicit false

namespace TlsGate

open Log

/-! ## Keys of mappings -/

private theorem Scalar.same_text_iff {key : Scalar} {s : Str} :
    key.same (.text s) = true ↔ key = .text s := by
  cases key <;> simp [Scalar.same, Scalar.integer?]

private theorem Scalar.same_text {key : Scalar} {s : Str} :
    key.same (.text s) = decide (key = .text s) := by
  rw [Bool.eq_iff_iff, same_text_iff, decide_eq_true_iff]

def Scalar.isPrintable : Scalar → Bool
  | .integer n => isShort n
  | _ => true

private theorem Scalar.isSome_shown? (key : Scalar) : key.shown?.isSome = key.isPrintable := by
  cases key with
  | integer n =>
    simp only [shown?, decimal?, isPrintable]
    split <;> simp_all
  | _ => rfl

private theorem Scalar.isSome_plain? (key : Scalar) : key.plain?.isSome = key.isPrintable := by
  rw [← isSome_shown?]
  cases key <;> simp only [plain?, shown?, Option.isSome_map, Option.isSome_some]

private theorem Scalar.isPrintable_of_shown? {key : Scalar} {shown : String}
    (h : key.shown? = some shown) : key.isPrintable = true := by
  rw [← isSome_shown?, h]
  rfl

private theorem Scalar.isPrintable_of_plain? {key : Scalar} {plain : Str}
    (h : key.plain? = some plain) : key.isPrintable = true := by
  rw [← isSome_plain?, h]
  rfl

private theorem Scalar.not_isPrintable_of_shown? {key : Scalar} (h : key.shown? = none) :
    key.isPrintable = false := by
  rw [← isSome_shown?, h]
  rfl

private theorem Scalar.not_isPrintable_of_plain? {key : Scalar} (h : key.plain? = none) :
    key.isPrintable = false := by
  rw [← isSome_plain?, h]
  rfl

/-- A value as a document has it: no mapping holds a key twice, and no set an item. -/
inductive Value.IsProper : Value → Prop
  | scalar (s : Scalar) : IsProper (.scalar s)
  | list {items : List Value} (parts : ∀ item ∈ items, IsProper item) : IsProper (.list items)
  | mapping {entries : List (Scalar × Value)}
      (keys : (entries.map Prod.fst).Pairwise fun a b => a.same b = false)
      (parts : ∀ entry ∈ entries, IsProper entry.2) : IsProper (.mapping entries)
  | set {items : List Scalar} (once : items.Pairwise fun a b => a.same b = false) :
      IsProper (.set items)

namespace Value

variable {entries entries' : List (Scalar × Value)} {key : Str} {value : Value}

private theorem count_text_le_one {keys : List Scalar}
    (h : keys.Pairwise fun a b => a.same b = false) :
    keys.count (.text key) ≤ 1 := by
  induction keys with
  | nil => simp
  | cons first rest ih =>
    obtain ⟨hfirst, hrest⟩ := List.pairwise_cons.mp h
    rw [List.count_cons]
    by_cases heq : first = .text key
    · subst heq
      have hnone : (Scalar.text key) ∉ rest := by
        intro hmem
        have hsame := Scalar.same_text_iff.mpr (rfl : Scalar.text key = .text key)
        rw [hfirst _ hmem] at hsame
        cases hsame
      simp [List.count_eq_zero_of_not_mem hnone]
    · simpa [heq] using ih hrest

private theorem lookup_cons (entry : Scalar × Value) :
    lookup (.text key) (entry :: entries) =
      if entry.1 = .text key then some entry.2 else lookup (.text key) entries := by
  by_cases h : entry.1 = .text key <;> simp [lookup, Scalar.same_text, h]

private theorem lookup_eq_none (h : Scalar.text key ∉ entries.map Prod.fst) :
    lookup (.text key) entries = none := by
  induction entries with
  | nil => rfl
  | cons entry rest ih =>
    simp only [List.map_cons, List.mem_cons, not_or] at h
    rw [lookup_cons, if_neg (Ne.symm h.1), ih h.2]

private theorem lookup_eq_some_iff (once : (entries.map Prod.fst).count (.text key) ≤ 1) :
    lookup (.text key) entries = some value ↔ (Scalar.text key, value) ∈ entries := by
  induction entries with
  | nil => simp [lookup]
  | cons entry rest ih =>
    obtain ⟨first, held⟩ := entry
    rw [lookup_cons, List.mem_cons, Prod.mk.injEq]
    rw [List.map_cons, List.count_cons] at once
    by_cases heq : first = .text key
    · have hnone : Scalar.text key ∉ rest.map Prod.fst := by
        simp only [heq, beq_self_eq_true, if_true] at once
        exact List.count_eq_zero.mp (by omega)
      have hrest : (Scalar.text key, value) ∉ rest := fun hmem =>
        hnone (List.mem_map_of_mem (f := Prod.fst) hmem)
      simp [heq, hrest, eq_comm]
    · have hrest := ih (by simpa [heq] using once)
      simp [heq, hrest, Ne.symm heq]

private theorem lookup_congr (once : (entries.map Prod.fst).count (.text key) ≤ 1)
    (once' : (entries'.map Prod.fst).count (.text key) ≤ 1)
    (same : ∀ value, (Scalar.text key, value) ∈ entries ↔ (Scalar.text key, value) ∈ entries') :
    lookup (.text key) entries = lookup (.text key) entries' := by
  refine Option.ext fun value => ?_
  rw [lookup_eq_some_iff once, lookup_eq_some_iff once', same]

end Value

namespace Config

/-! ## What a document says -/

private theorem Setting.key_injective {s t : Setting} (h : (s.key : Str) = t.key) : s = t := by
  cases s <;> cases t <;> first | rfl | exact absurd h (by decide)

private theorem Setting.ofKey?_eq_some_iff {key : Scalar} {setting : Setting} :
    Setting.ofKey? key = some setting ↔ key = .text setting.key := by
  constructor
  · intro h
    unfold Setting.ofKey? at h
    simpa using List.find?_some h
  · rintro rfl
    cases setting <;> rfl

def isOption (key : Scalar) : Bool := Setting.all.any fun setting => key = .text setting.key

private theorem isOption_iff {key : Scalar} :
    isOption key = true ↔ ∃ s : Setting, key = .text s.key := by
  simp only [isOption, List.any_eq_true, decide_eq_true_eq]
  constructor
  · rintro ⟨setting, -, h⟩
    exact ⟨setting, h⟩
  · rintro ⟨setting, h⟩
    exact ⟨setting, by cases setting <;> decide, h⟩

private theorem ofKey?_eq_none_iff {key : Scalar} :
    Setting.ofKey? key = none ↔ isOption key = false := by
  rw [← Bool.not_eq_true, isOption_iff]
  constructor
  · rintro h ⟨setting, hkey⟩
    rw [Setting.ofKey?_eq_some_iff.mpr hkey] at h
    cases h
  · intro h
    cases hkey : Setting.ofKey? key with
    | none => rfl
    | some setting => exact absurd ⟨setting, Setting.ofKey?_eq_some_iff.mp hkey⟩ h

def isSetting : Value → Bool
  | .scalar .null => true
  | .scalar (.text _) => true
  | _ => false

/-- The documents that are configurations. -/
inductive FitsSchema : Value → Prop
  | null : FitsSchema (.scalar .null)
  | unset {entries : List (Scalar × Value)}
      (absent : Value.lookup (.text sectionKey) entries = none) : FitsSchema (.mapping entries)
  | emptied {entries : List (Scalar × Value)}
      (found : Value.lookup (.text sectionKey) entries = some (.scalar .null)) :
      FitsSchema (.mapping entries)
  | options {entries options : List (Scalar × Value)}
      (found : Value.lookup (.text sectionKey) entries = some (.mapping options))
      (fits : ∀ setting : Setting, ∀ value,
        Value.lookup (.text setting.key) options = some value → isSetting value = true) :
      FitsSchema (.mapping entries)

def ArePrintable (isKnown : Scalar → Bool) (entries : List (Scalar × Value)) : Prop :=
  ∀ entry ∈ entries, isKnown entry.1 = false → entry.1.isPrintable = true

def isSection (key : Scalar) : Bool := key = .text sectionKey

/-- All keys of a document and of its section that are not known can stand in a warning. -/
def IsPrintable : Value → Prop
  | .mapping entries =>
    ArePrintable isSection entries ∧
      ∀ options, Value.lookup (.text sectionKey) entries = some (.mapping options) →
        ArePrintable isOption options
  | _ => True

def valueOf? (document : Value) (setting : Setting) : Option Value :=
  match document with
  | .mapping entries =>
    match Value.lookup (.text sectionKey) entries with
    | some (.mapping options) => Value.lookup (.text setting.key) options
    | _ => none
  | _ => none

def textOf (fallback : Str) : Option Value → Str
  | some (.scalar (.text text)) => text
  | _ => fallback

/-- The text that a document has for an option; it is empty if the option is absent or null. -/
def written (document : Value) (setting : Setting) : Str :=
  textOf "" (valueOf? document setting)

def outsideWarnings (entries : List (Scalar × Value)) : List Record :=
  (((entries.filter fun entry => !isSection entry.1).takeWhile (·.1.isPrintable)).filterMap
    (·.1.shown?)).map fun (shown : String) => unknownKey shown

def misfits (entry : Scalar × Value) : Bool := isOption entry.1 && !isSetting entry.2

/-- Whether the section is read no further than an entry: an option with a value that it may not
have, or a key that is not known and cannot stand in a warning. -/
def stops (entry : Scalar × Value) : Bool :=
  misfits entry || (!isOption entry.1 && !entry.1.isPrintable)

def sectionWarnings (options : List (Scalar × Value)) : List Record :=
  (((options.takeWhile fun entry => !stops entry).filter fun entry =>
    !isOption entry.1).filterMap (·.1.plain?)).map
      fun plain => unknownKey (((sectionKey ++ "." : String) : Str) ++ plain)

/-- The warnings about the keys of a document. The section is not read if a key outside it cannot
stand in a warning. -/
def warnings : Value → List Record
  | .mapping entries =>
    outsideWarnings entries ++
      if entries.all fun entry => isSection entry.1 || entry.1.isPrintable then
        match Value.lookup (.text sectionKey) entries with
        | some (.mapping options) => sectionWarnings options
        | _ => []
      else []
  | _ => []

/-! ## Changes that make no difference -/

/-- Entries that come of others by changing their order, and by adding and removing entries with
keys that are not known. -/
inductive Reordered (isKnown : Scalar → Bool) :
    List (Scalar × Value) → List (Scalar × Value) → Prop
  | permuted {entries entries' : List (Scalar × Value)} (perm : entries.Perm entries') :
      Reordered isKnown entries entries'
  | added (entries : List (Scalar × Value)) {key : Scalar} (value : Value)
      (unknown : isKnown key = false) : Reordered isKnown entries ((key, value) :: entries)
  | removed (entries : List (Scalar × Value)) {key : Scalar} (value : Value)
      (unknown : isKnown key = false) : Reordered isKnown ((key, value) :: entries) entries
  | trans {first second third : List (Scalar × Value)} (left : Reordered isKnown first second)
      (right : Reordered isKnown second third) : Reordered isKnown first third

/-- Documents that come of others by such changes of the document or of its section. -/
inductive Rearranged : Value → Value → Prop
  | outside {entries entries' : List (Scalar × Value)}
      (change : Reordered isSection entries entries') :
      Rearranged (.mapping entries) (.mapping entries')
  | inside {options options' : List (Scalar × Value)} (rest : List (Scalar × Value))
      (change : Reordered isOption options options') :
      Rearranged (.mapping ((.text sectionKey, .mapping options) :: rest))
        (.mapping ((.text sectionKey, .mapping options') :: rest))
  | trans {first second third : Value} (left : Rearranged first second)
      (right : Rearranged second third) : Rearranged first third

/-! ## Reading the section -/

section Reading

variable {options entries : List (Scalar × Value)} {setting : Setting}

def HoldsOptionsOnce (options : List (Scalar × Value)) : Prop :=
  ∀ setting : Setting, (options.map Prod.fst).count (.text setting.key) ≤ 1

@[simp] theorem TlsConfig.get_set (c : TlsConfig) (setting other : Setting) (text : Str) :
    (c.set setting text).get other = if setting = other then text else c.get other := by
  cases setting <;> cases other <;> rfl

private theorem misfits_of_unknown {key : Scalar} {value : Value}
    (h : Setting.ofKey? key = none) : misfits (key, value) = false := by
  simp [misfits, ofKey?_eq_none_iff.mp h]

private theorem misfits_of_option {key : Scalar} {value : Value}
    (h : Setting.ofKey? key = some setting) : misfits (key, value) = !isSetting value := by
  simp [misfits, isOption_iff.mpr ⟨setting, Setting.ofKey?_eq_some_iff.mp h⟩]

private theorem stops_of_unknown {key : Scalar} {value : Value}
    (h : Setting.ofKey? key = none) : stops (key, value) = !key.isPrintable := by
  simp [stops, misfits_of_unknown h, ofKey?_eq_none_iff.mp h]

private theorem isOption_of_ofKey? {key : Scalar} (h : Setting.ofKey? key = some setting) :
    isOption key = true := isOption_iff.mpr ⟨setting, Setting.ofKey?_eq_some_iff.mp h⟩

private theorem stops_of_option {key : Scalar} {value : Value}
    (h : Setting.ofKey? key = some setting) : stops (key, value) = !isSetting value := by
  simp [stops, misfits_of_option h, isOption_of_ofKey? h]

private theorem isSetting_eq_false {value : Value} (hnull : value = .scalar .null → False)
    (htext : ∀ text, value = .scalar (.text text) → False) : isSetting value = false := by
  unfold isSetting
  split
  · exact (hnull rfl).elim
  · exact (htext _ rfl).elim
  · rfl

private theorem HoldsOptionsOnce.tail {entry : Scalar × Value}
    (once : HoldsOptionsOnce (entry :: options)) : HoldsOptionsOnce options := by
  intro setting
  have hcount := once setting
  rw [List.map_cons, List.count_cons] at hcount
  omega

private theorem HoldsOptionsOnce.lookup_tail {value : Value}
    (once : HoldsOptionsOnce ((.text setting.key, value) :: options)) :
    Value.lookup (.text setting.key) options = none := by
  refine Value.lookup_eq_none fun hmem => ?_
  have hcount := once setting
  rw [List.map_cons, List.count_cons_self] at hcount
  have hpos := List.count_pos_iff.mpr hmem
  omega

private theorem exists_decodeSection_iff (c : TlsConfig) (options : List (Scalar × Value)) :
    (∃ c', (decodeSection c options).2 = .ok c') ↔ ∀ entry ∈ options, stops entry = false := by
  fun_induction decodeSection c options with
  | case1 c => simp
  | case2 c key value rest hkey hplain =>
    simp [stops_of_unknown hkey, Scalar.not_isPrintable_of_plain? hplain]
  | case3 c key value rest hkey plain hplain records result hread ih =>
    rw [hread] at ih
    simpa [stops_of_unknown hkey, Scalar.isPrintable_of_plain? hplain] using ih
  | case4 c key rest setting hkey ih => simpa [stops_of_option hkey, isSetting] using ih
  | case5 c key rest setting hkey text ih => simpa [stops_of_option hkey, isSetting] using ih
  | case6 c key rest setting hkey value hnull htext =>
    simp [stops_of_option hkey, isSetting_eq_false hnull htext]

private theorem decodeSection_eq_error {c : TlsConfig} {options : List (Scalar × Value)}
    {fault : DecodeFault} (h : (decodeSection c options).2 = .error fault) :
    (∃ found, fault = .schema found) ∧ (∃ entry ∈ options, misfits entry = true) ∨
      fault = .unprintable ∧ ¬ ArePrintable isOption options := by
  fun_induction decodeSection c options with
  | case1 c => cases h
  | case2 c key value rest hkey hplain =>
    refine .inr ⟨(Except.error.inj h).symm, fun hprintable => ?_⟩
    have hkeyPrintable := hprintable _ List.mem_cons_self (ofKey?_eq_none_iff.mp hkey)
    rw [Scalar.not_isPrintable_of_plain? hplain] at hkeyPrintable
    cases hkeyPrintable
  | case3 c key value rest hkey plain hplain records result hread ih =>
    rw [hread] at ih
    obtain ⟨hfound, entry, hmem, hentry⟩ | ⟨hfault, hrest⟩ := ih h
    · exact .inl ⟨hfound, entry, List.mem_cons_of_mem _ hmem, hentry⟩
    · exact .inr ⟨hfault, fun hprintable => hrest fun entry hmem =>
        hprintable entry (List.mem_cons_of_mem _ hmem)⟩
  | case4 c key rest setting hkey ih =>
    obtain ⟨hfound, entry, hmem, hentry⟩ | ⟨hfault, hrest⟩ := ih h
    · exact .inl ⟨hfound, entry, List.mem_cons_of_mem _ hmem, hentry⟩
    · exact .inr ⟨hfault, fun hprintable => hrest fun entry hmem =>
        hprintable entry (List.mem_cons_of_mem _ hmem)⟩
  | case5 c key rest setting hkey text ih =>
    obtain ⟨hfound, entry, hmem, hentry⟩ | ⟨hfault, hrest⟩ := ih h
    · exact .inl ⟨hfound, entry, List.mem_cons_of_mem _ hmem, hentry⟩
    · exact .inr ⟨hfault, fun hprintable => hrest fun entry hmem =>
        hprintable entry (List.mem_cons_of_mem _ hmem)⟩
  | case6 c key rest setting hkey value hnull htext =>
    refine .inl ⟨⟨_, (Except.error.inj h).symm⟩, _, List.mem_cons_self, ?_⟩
    rw [misfits_of_option hkey, isSetting_eq_false hnull htext]
    rfl

private theorem decodeSection_records (c : TlsConfig) (options : List (Scalar × Value)) :
    (decodeSection c options).1 = sectionWarnings options := by
  unfold sectionWarnings
  fun_induction decodeSection c options with
  | case1 c => rfl
  | case2 c key value rest hkey hplain =>
    simp [stops_of_unknown hkey, Scalar.not_isPrintable_of_plain? hplain]
  | case3 c key value rest hkey plain hplain records result hread ih =>
    rw [hread] at ih
    dsimp only at ih
    simp [stops_of_unknown hkey, Scalar.isPrintable_of_plain? hplain, ofKey?_eq_none_iff.mp hkey,
      hplain, ih]
  | case4 c key rest setting hkey ih =>
    simp [stops_of_option hkey, isSetting, isOption_of_ofKey? hkey, ih]
  | case5 c key rest setting hkey text ih =>
    simp [stops_of_option hkey, isSetting, isOption_of_ofKey? hkey, ih]
  | case6 c key rest setting hkey value hnull htext =>
    simp [stops_of_option hkey, isSetting_eq_false hnull htext]

private theorem decodeSection_get {c c' : TlsConfig} (once : HoldsOptionsOnce options)
    (h : (decodeSection c options).2 = .ok c') (setting : Setting) :
    c'.get setting = textOf (c.get setting) (Value.lookup (.text setting.key) options) := by
  -- The reader takes the last value of a key and looking it up the first; there is one only.
  fun_induction decodeSection c options with
  | case1 c =>
    obtain rfl := Except.ok.inj h
    rfl
  | case2 => cases h
  | case3 c key value rest hkey plain hplain records result hread ih =>
    have hne : key ≠ .text setting.key := by
      rintro rfl
      rw [Setting.ofKey?_eq_some_iff.mpr rfl] at hkey
      cases hkey
    rw [hread] at ih
    rw [Value.lookup_cons, if_neg hne]
    exact ih once.tail h
  | case4 c key rest other hkey ih =>
    obtain rfl := Setting.ofKey?_eq_some_iff.mp hkey
    rw [ih once.tail h, Value.lookup_cons]
    by_cases heq : other = setting
    · subst heq
      rw [once.lookup_tail, if_pos rfl]
      rfl
    · rw [if_neg fun hsame => heq (Setting.key_injective (Scalar.text.inj hsame))]
  | case5 c key rest other hkey text ih =>
    obtain rfl := Setting.ofKey?_eq_some_iff.mp hkey
    rw [ih once.tail h, Value.lookup_cons, TlsConfig.get_set]
    by_cases heq : other = setting
    · subst heq
      rw [once.lookup_tail, if_pos rfl, if_pos rfl]
      rfl
    · rw [if_neg heq, if_neg fun hsame => heq (Setting.key_injective (Scalar.text.inj hsame))]
  | case6 => cases h

end Reading

/-! ## Reading a document -/

section Documents

variable {entries options : List (Scalar × Value)} {document : Value}

private theorem not_isSection_iff {key : Scalar} :
    isSection key = false ↔ key.same (.text sectionKey) = false := by
  rw [Scalar.same_text, isSection]

private theorem warnOutside_eq (entries : List (Scalar × Value)) :
    warnOutside entries = (outsideWarnings entries,
      if entries.all fun entry => isSection entry.1 || entry.1.isPrintable then .ok ()
      else .error .unprintable) := by
  unfold outsideWarnings
  have hall (key : Scalar) (value : Value) (rest : List (Scalar × Value))
      (h : (isSection key || key.isPrintable) = true) :
      (((key, value) :: rest).all fun entry => isSection entry.1 || entry.1.isPrintable) =
        rest.all fun entry => isSection entry.1 || entry.1.isPrintable := by
    rw [List.all_cons, h, Bool.true_and]
  fun_induction warnOutside entries with
  | case1 => rfl
  | case2 key value rest hsame ih =>
    have hsection : isSection key = true := by rwa [isSection, ← Scalar.same_text]
    rw [hall key value rest (by simp [hsection])]
    simp [ih, hsection]
  | case3 key value rest hsame hshown =>
    have hsection := not_isSection_iff.mpr (Bool.not_eq_true _ ▸ hsame)
    simp [hsection, Scalar.not_isPrintable_of_shown? hshown]
  | case4 key value rest hsame shown hshown records result hrest ih =>
    have hsection := not_isSection_iff.mpr (Bool.not_eq_true _ ▸ hsame)
    rw [hrest, Prod.mk.injEq] at ih
    have hprintable := Scalar.isPrintable_of_shown? hshown
    rw [hall key value rest (by simp [hprintable])]
    simp [hsection, hprintable, hshown, ih.1, ih.2]

private theorem all_printable_iff :
    (entries.all fun entry => isSection entry.1 || entry.1.isPrintable) = true ↔
      ArePrintable isSection entries := by
  simp only [List.all_eq_true, ArePrintable]
  refine forall₂_congr fun entry _ => ?_
  cases isSection entry.1 <;> simp

private theorem decode_mapping_of_printable (h : ArePrintable isSection entries) :
    (decode (.mapping entries)).2 =
      match Value.lookup (.text sectionKey) entries with
      | none => .ok {}
      | some (.scalar .null) => .ok {}
      | some (.mapping options) => (decodeSection {} options).2
      | some _ => .error (.schema .sectionNotMapping) := by
  simp only [decode, warnOutside_eq, if_pos (all_printable_iff.mpr h)]
  cases Value.lookup (.text sectionKey) entries with
  | none => rfl
  | some value =>
    cases value with
    | scalar s => cases s <;> rfl
    | _ => rfl

private theorem decode_mapping_of_unprintable (h : ¬ ArePrintable isSection entries) :
    (decode (.mapping entries)).2 = .error .unprintable := by
  simp only [decode, warnOutside_eq, if_neg (mt all_printable_iff.mp h)]

private theorem decode_records (document : Value) :
    (decode document).1 = warnings document := by
  cases document with
  | mapping entries =>
    simp only [decode, warnings, warnOutside_eq]
    by_cases h : (entries.all fun entry => isSection entry.1 || entry.1.isPrintable) = true
    · simp only [if_pos h]
      cases Value.lookup (.text sectionKey) entries with
      | none => simp
      | some value =>
        cases value with
        | mapping options => simp [decodeSection_records]
        | scalar s => cases s <;> simp
        | _ => simp
    · simp [if_neg h]
  | scalar s => cases s <;> rfl
  | list items => rfl
  | set items => rfl

def HoldsKnownOnce : Value → Prop
  | .mapping entries =>
    (entries.map Prod.fst).count (.text sectionKey) ≤ 1 ∧
      ∀ options, (Scalar.text sectionKey, Value.mapping options) ∈ entries →
        HoldsOptionsOnce options
  | _ => True

theorem HoldsKnownOnce.of_isProper (proper : document.IsProper) : HoldsKnownOnce document := by
  cases proper with
  | mapping keys parts =>
    refine ⟨Value.count_text_le_one keys, fun options hmem setting => ?_⟩
    cases parts _ hmem with
    | mapping keys _ => exact Value.count_text_le_one keys
  | scalar | list | set => trivial

private theorem HoldsKnownOnce.holdsOptionsOnce (once : HoldsKnownOnce (.mapping entries))
    (found : Value.lookup (.text sectionKey) entries = some (.mapping options)) :
    HoldsOptionsOnce options :=
  once.2 options ((Value.lookup_eq_some_iff once.1).mp found)

private theorem misfits_eq_false_iff (once : HoldsOptionsOnce options) :
    (∀ entry ∈ options, misfits entry = false) ↔
      ∀ setting : Setting, ∀ value, Value.lookup (.text setting.key) options = some value →
        isSetting value = true := by
  constructor
  · intro h setting value hfound
    have hentry := h _ ((Value.lookup_eq_some_iff (once setting)).mp hfound)
    rw [misfits_of_option (Setting.ofKey?_eq_some_iff.mpr rfl)] at hentry
    simpa using hentry
  · rintro h ⟨key, value⟩ hmem
    cases hkey : Setting.ofKey? key with
    | none => exact misfits_of_unknown hkey
    | some setting =>
      obtain rfl := Setting.ofKey?_eq_some_iff.mp hkey
      have hfound := (Value.lookup_eq_some_iff (once setting)).mpr hmem
      rw [misfits_of_option hkey, h setting value hfound]
      rfl

private theorem stops_eq_false_iff :
    (∀ entry ∈ options, stops entry = false) ↔
      (∀ entry ∈ options, misfits entry = false) ∧ ArePrintable isOption options := by
  simp only [stops, ArePrintable, Bool.or_eq_false_iff, forall_and]
  refine and_congr_right fun _ => forall₂_congr fun entry _ => ?_
  cases isOption entry.1 <;> simp

private theorem arePrintable_of_ok {c : TlsConfig} (h : (decode (.mapping entries)).2 = .ok c) :
    ArePrintable isSection entries := by
  by_contra hnot
  rw [decode_mapping_of_unprintable hnot] at h
  cases h

theorem exists_decode_iff (once : HoldsKnownOnce document) :
    (∃ c, (decode document).2 = .ok c) ↔ FitsSchema document ∧ IsPrintable document := by
  cases document with
  | mapping entries =>
    constructor
    · rintro ⟨c, h⟩
      have houtside := arePrintable_of_ok h
      rw [decode_mapping_of_printable houtside] at h
      split at h
      · rename_i absent
        exact ⟨.unset absent, houtside, fun options hfound => by simp [absent] at hfound⟩
      · rename_i found
        exact ⟨.emptied found, houtside, fun options hfound => by simp [found] at hfound⟩
      · rename_i options found
        obtain ⟨hfits, hprintable⟩ :=
          stops_eq_false_iff.mp ((exists_decodeSection_iff _ _).mp ⟨c, h⟩)
        refine ⟨.options found ((misfits_eq_false_iff (once.holdsOptionsOnce found)).mp hfits),
          houtside, fun other hother => ?_⟩
        obtain rfl := Value.mapping.inj (Option.some.inj (found.symm.trans hother))
        exact hprintable
      · cases h
    · rintro ⟨hfits, houtside, hinside⟩
      rw [decode_mapping_of_printable houtside]
      cases hfits with
      | unset absent => exact ⟨{}, by rw [absent]⟩
      | emptied found => exact ⟨{}, by rw [found]⟩
      | options found fits =>
        rw [found]
        exact (exists_decodeSection_iff _ _).mpr (stops_eq_false_iff.mpr
          ⟨(misfits_eq_false_iff (once.holdsOptionsOnce found)).mpr fits, hinside _ found⟩)
  | scalar s =>
    cases s with
    | null => exact ⟨fun _ => ⟨.null, trivial⟩, fun _ => ⟨{}, rfl⟩⟩
    | _ => exact ⟨fun ⟨_, hc⟩ => (by cases hc), fun ⟨h, _⟩ => (by cases h)⟩
  | list items => exact ⟨fun ⟨_, hc⟩ => (by cases hc), fun ⟨h, _⟩ => (by cases h)⟩
  | set items => exact ⟨fun ⟨_, hc⟩ => (by cases hc), fun ⟨h, _⟩ => (by cases h)⟩

private theorem decode_eq_error (once : HoldsKnownOnce document) {fault : DecodeFault}
    (h : (decode document).2 = .error fault) :
    (∃ found, fault = .schema found) ∧ ¬ FitsSchema document ∨
      fault = .unprintable ∧ ¬ IsPrintable document := by
  cases document with
  | mapping entries =>
    by_cases houtside : ArePrintable isSection entries
    · rw [decode_mapping_of_printable houtside] at h
      split at h
      · cases h
      · cases h
      · rename_i options found
        obtain ⟨hfault, entry, hmem, hentry⟩ | ⟨rfl, hinside⟩ := decodeSection_eq_error h
        · refine .inl ⟨hfault, fun hfits => ?_⟩
          cases hfits with
          | unset absent => simp [absent] at found
          | emptied found' => simp [found'] at found
          | options found' fits =>
            obtain rfl := Value.mapping.inj (Option.some.inj (found.symm.trans found'))
            have hnone := (misfits_eq_false_iff (once.holdsOptionsOnce found)).mpr fits entry hmem
            rw [hentry] at hnone
            cases hnone
        · exact .inr ⟨rfl, fun hprintable => hinside (hprintable.2 _ found)⟩
      · rename_i value hnull hmapping found
        refine .inl ⟨⟨_, (Except.error.inj h).symm⟩, fun hfits => ?_⟩
        cases hfits with
        | unset absent => simp [absent] at found
        | emptied found' => exact hnull (Option.some.inj (found.symm.trans found'))
        | options found' fits => exact hmapping _ (Option.some.inj (found.symm.trans found'))
    · rw [decode_mapping_of_unprintable houtside] at h
      exact .inr ⟨(Except.error.inj h).symm, fun hprintable => houtside hprintable.1⟩
  | scalar s =>
    cases s with
    | null => cases h
    | _ => exact .inl ⟨⟨_, (Except.error.inj h).symm⟩, nofun⟩
  | list items => exact .inl ⟨⟨_, (Except.error.inj h).symm⟩, nofun⟩
  | set items => exact .inl ⟨⟨_, (Except.error.inj h).symm⟩, nofun⟩

theorem decode_get (once : HoldsKnownOnce document) {c : TlsConfig}
    (h : (decode document).2 = .ok c) (setting : Setting) :
    c.get setting = written document setting := by
  have hempty : ({} : TlsConfig).get setting = "" := by cases setting <;> rfl
  cases document with
  | mapping entries =>
    rw [decode_mapping_of_printable (arePrintable_of_ok h)] at h
    simp only [written, valueOf?]
    split at h
    · rename_i hfound
      obtain rfl := Except.ok.inj h
      rw [hfound, hempty]
      rfl
    · rename_i hfound
      obtain rfl := Except.ok.inj h
      rw [hfound, hempty]
      rfl
    · rename_i options hfound
      rw [hfound, decodeSection_get (once.holdsOptionsOnce hfound) h setting, hempty]
    · cases h
  | scalar s =>
    cases s with
    | null =>
      obtain rfl := Except.ok.inj h
      exact hempty
    | _ => cases h
  | list items => cases h
  | set items => cases h

/-! ## Rearranged documents -/

private theorem TlsConfig.eq_of_get {c c' : TlsConfig}
    (h : ∀ setting, c.get setting = c'.get setting) : c = c' := by
  cases c
  cases c'
  simp only [TlsConfig.mk.injEq]
  exact ⟨h .certPath, h .keyPath, h .serverName, h .clientAuth, h .clientCas⟩

variable {isKnown : Scalar → Bool} {entries' options' : List (Scalar × Value)} {key : Str}

private theorem ne_of_unknown {k k' : Scalar} (known : isKnown k = true)
    (unknown : isKnown k' = false) : k ≠ k' := by
  rintro rfl
  rw [known] at unknown
  cases unknown

private theorem Reordered.count_eq (h : Reordered isKnown entries entries')
    (known : isKnown (.text key) = true) :
    (entries.map Prod.fst).count (.text key) = (entries'.map Prod.fst).count (.text key) := by
  induction h with
  | permuted perm => exact (perm.map Prod.fst).count_eq _
  | added entries value unknown => simp [(ne_of_unknown known unknown).symm]
  | removed entries value unknown => simp [(ne_of_unknown known unknown).symm]
  | trans _ _ left right => exact left.trans right

private theorem Reordered.mem_iff (h : Reordered isKnown entries entries')
    (known : isKnown (.text key) = true) (value : Value) :
    (Scalar.text key, value) ∈ entries ↔ (Scalar.text key, value) ∈ entries' := by
  induction h with
  | permuted perm => exact perm.mem_iff
  | added entries value unknown => simp [ne_of_unknown known unknown]
  | removed entries value unknown => simp [ne_of_unknown known unknown]
  | trans _ _ left right => exact left.trans right

private theorem isSection_sectionKey : isSection (.text sectionKey) = true := by simp [isSection]

private theorem isOption_key (setting : Setting) : isOption (.text setting.key) = true :=
  isOption_iff.mpr ⟨setting, rfl⟩

private theorem Reordered.holdsOptionsOnce (h : Reordered isOption options options')
    (once : HoldsOptionsOnce options) : HoldsOptionsOnce options' := by
  intro setting
  rw [← h.count_eq (isOption_key setting)]
  exact once setting

private theorem Reordered.lookup_eq (change : Reordered isOption options options')
    (once : HoldsOptionsOnce options) (setting : Setting) :
    Value.lookup (.text setting.key) options = Value.lookup (.text setting.key) options' :=
  Value.lookup_congr (once setting) (change.holdsOptionsOnce once setting)
    (change.mem_iff (isOption_key setting))

private theorem Rearranged.holdsKnownOnce {document other : Value}
    (change : Rearranged document other) (once : HoldsKnownOnce document) :
    HoldsKnownOnce other := by
  induction change with
  | outside change =>
    refine ⟨?_, fun options hmem =>
      once.2 options ((change.mem_iff isSection_sectionKey _).mpr hmem)⟩
    rw [← change.count_eq isSection_sectionKey]
    exact once.1
  | @inside options options' rest change =>
    have hrest : Scalar.text sectionKey ∉ rest.map Prod.fst := by
      have hcount := once.1
      rw [List.map_cons, List.count_cons_self] at hcount
      exact List.count_eq_zero.mp (by omega)
    refine ⟨once.1, fun found hmem => ?_⟩
    rcases List.mem_cons.mp hmem with heq | hmem
    · obtain rfl := Value.mapping.inj (Prod.mk.inj heq).2
      exact change.holdsOptionsOnce (once.2 options List.mem_cons_self)
    · exact absurd (List.mem_map_of_mem (f := Prod.fst) hmem) hrest
  | trans _ _ left right => exact right (left once)

private theorem Rearranged.same {document other : Value} (change : Rearranged document other)
    (once : HoldsKnownOnce document) :
    (FitsSchema document → FitsSchema other) ∧ written document = written other := by
  induction change with
  | @outside entries entries' change =>
    have once' := (Rearranged.outside change).holdsKnownOnce once
    have hlookup := Value.lookup_congr once.1 once'.1 (change.mem_iff isSection_sectionKey)
    refine ⟨fun hfits => ?_, funext fun setting => ?_⟩
    · cases hfits with
      | unset absent => exact .unset (hlookup ▸ absent)
      | emptied found => exact .emptied (hlookup ▸ found)
      | options found fits => exact .options (hlookup ▸ found) fits
    · simp only [written, valueOf?, hlookup]
  | @inside options options' rest change =>
    have hlookup := change.lookup_eq (once.2 options List.mem_cons_self)
    have hfound (options : List (Scalar × Value)) : Value.lookup (.text sectionKey)
        ((.text sectionKey, .mapping options) :: rest) = some (.mapping options) := by
      rw [Value.lookup_cons, if_pos rfl]
    refine ⟨fun hfits => .options (hfound options') fun setting value hvalue => ?_,
      funext fun setting => ?_⟩
    · cases hfits with
      | unset absent => simp [hfound] at absent
      | emptied found => simp [hfound] at found
      | options found fits =>
        obtain rfl := Value.mapping.inj (Option.some.inj ((hfound options).symm.trans found))
        exact fits setting value ((hlookup setting).trans hvalue)
    · simp only [written, valueOf?, hfound, hlookup setting]
  | trans left _ ihleft ihright =>
    obtain ⟨hleft, hsame⟩ := ihleft once
    obtain ⟨hright, hsame'⟩ := ihright (left.holdsKnownOnce once)
    exact ⟨fun hfits => hright (hleft hfits), hsame.trans hsame'⟩

private theorem Rearranged.decode_eq_ok {document other : Value}
    (change : Rearranged document other) (once : HoldsKnownOnce document) {c : TlsConfig}
    (h : (decode document).2 = .ok c) (hprintable : IsPrintable other) :
    (decode other).2 = .ok c := by
  have once' := change.holdsKnownOnce once
  obtain ⟨hfits, hwritten⟩ := change.same once
  obtain ⟨c', hc'⟩ := (exists_decode_iff once').mpr
    ⟨hfits ((exists_decode_iff once).mp ⟨c, h⟩).1, hprintable⟩
  have heq : c' = c := TlsConfig.eq_of_get fun setting => by
    rw [decode_get once' hc', decode_get once h, hwritten]
  rw [hc', heq]

private theorem Reordered.symm (h : Reordered isKnown entries entries') :
    Reordered isKnown entries' entries := by
  induction h with
  | permuted perm => exact .permuted perm.symm
  | added entries value unknown => exact .removed entries value unknown
  | removed entries value unknown => exact .added entries value unknown
  | trans _ _ left right => exact right.trans left

private theorem Rearranged.symm {document other : Value} (change : Rearranged document other) :
    Rearranged other document := by
  induction change with
  | outside change => exact .outside change.symm
  | inside rest change => exact .inside rest change.symm
  | trans _ _ left right => exact right.trans left

end Documents

/-- Reading a document succeeds exactly if it fits the schema and each of its keys that is not known
can stand in a warning, and then gives every option the text that the document has for it. The order
of the keys, and keys that are not known and can stand in a warning, make no difference to it. It
fails with a fault of the schema only on a document that does not fit it, and in no other way unless
a key cannot be printed. The warnings are about the keys that are not known: those of the document,
and those of the section up to the first option that has a value it may not have; the first key that
cannot be printed ends them. -/
theorem decodes_by_schema (document : Value) (proper : document.IsProper) :
    ((∃ c, (decode document).2 = .ok c) ↔ FitsSchema document ∧ IsPrintable document) ∧
      (∀ c, (decode document).2 = .ok c → ∀ setting, c.get setting = written document setting) ∧
      (∀ fault, (decode document).2 = .error fault →
        (∃ found, fault = .schema found) ∧ ¬ FitsSchema document ∨
          fault = .unprintable ∧ ¬ IsPrintable document) ∧
      (∀ other, Rearranged document other → ∀ c,
        (decode document).2 = .ok c ∧ IsPrintable other ↔
          (decode other).2 = .ok c ∧ IsPrintable document) ∧
      (decode document).1 = warnings document := by
  have once := HoldsKnownOnce.of_isProper proper
  refine ⟨exists_decode_iff once, fun c h => decode_get once h, fun fault => decode_eq_error once,
    fun other change c => ⟨?_, ?_⟩, decode_records document⟩
  · rintro ⟨h, hprintable⟩
    exact ⟨change.decode_eq_ok once h hprintable, ((exists_decode_iff once).mp ⟨c, h⟩).2⟩
  · rintro ⟨h, hprintable⟩
    have once' := change.holdsKnownOnce once
    exact ⟨change.symm.decode_eq_ok once' h hprintable, ((exists_decode_iff once').mp ⟨c, h⟩).2⟩

def mixedDocument : Value :=
  .mapping [(.integer 1, .list []), (.text "tlsConfig", .mapping
    [(.text "clientAuth", .scalar .null), (.null, .scalar (.bool true)),
      (.text "serverName", .scalar (.text "a"))])]

def mixedDocumentRearranged : Value :=
  .mapping [(.text "tlsConfig", .mapping
    [(.text "serverName", .scalar (.text "a")), (.text "clientAuth", .scalar .null),
      (.null, .scalar (.bool true))])]

/-- Both documents configure the name alone, and one key outside and one inside are warned about. -/
theorem decodes_by_schema_mixed :
    mixedDocument.IsProper ∧ Rearranged mixedDocument mixedDocumentRearranged ∧
      (decode mixedDocumentRearranged).2 = .ok { serverName := "a" } ∧
      (decode mixedDocument).1 = [unknownKey "1", unknownKey "tlsConfig.None"] := by
  have hproper : mixedDocument.IsProper := by
    refine .mapping (by decide) ?_
    simp only [List.forall_mem_cons, List.not_mem_nil, false_imp_iff, implies_true, and_true]
    refine ⟨.list (by simp), .mapping (by decide) ?_⟩
    simp only [List.forall_mem_cons, List.not_mem_nil, false_imp_iff, implies_true, and_true]
    exact ⟨.scalar _, .scalar _, .scalar _⟩
  have hrearranged : Rearranged mixedDocument mixedDocumentRearranged :=
    .trans (.outside (.removed _ _ (by decide)))
      (.inside [] (.permuted (@List.perm_append_comm _ [_, _] [_])))
  obtain ⟨-, -, -, hsame, hwarnings⟩ := decodes_by_schema mixedDocument hproper
  have hprintable : IsPrintable mixedDocumentRearranged := by
    refine ⟨by simp [ArePrintable, isSection, sectionKey], fun options hfound => ?_⟩
    obtain rfl := Value.mapping.inj (Option.some.inj hfound)
    simp [ArePrintable, Scalar.isPrintable]
  refine ⟨hproper, hrearranged, ?_, hwarnings.trans (by decide +kernel)⟩
  exact ((hsame _ hrearranged _).mp ⟨by decide +kernel, hprintable⟩).1

def hugeDocument : Value :=
  .mapping [(.integer (Nat.pow 16 3600 - 1 : Nat), .scalar (.integer 1))]

/-- The document with the large key fits the schema, and is refused without a warning. -/
theorem decode_refuses_huge :
    hugeDocument.IsProper ∧ FitsSchema hugeDocument ∧
      decode hugeDocument = ([], .error .unprintable) := by
  refine ⟨?_, .unset (by rfl), by decide +kernel⟩
  refine .mapping (List.pairwise_singleton _ _) ?_
  simp only [List.forall_mem_singleton]
  exact .scalar _

end Config

end TlsGate
