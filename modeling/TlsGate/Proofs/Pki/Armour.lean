import Mathlib.Data.List.Chain
import TlsGate.Pki.TrustPool
import TlsGate.Proofs.Base64
import TlsGate.Proofs.Mark
import TlsGate.Proofs.Utf8

/-!
Armoured certificates read back. The lines between the BEGIN line and the END line of a written
block have nothing but base64 in them, so the reader finds the two lines again, finds no headers,
and gets the data that was written.
-/

set_option autoImplicit false
set_option relaxedAutoImplicit false

namespace TlsGate.Pki

open TlsGate.Text

namespace Pem

/-! ## Cutting at marks -/

private theorem reach_eq_some {mark found pending read input : Bytes} {n : Nat}
    (hmark : mark = found ++ pending) (hread : found <:+ read)
    (h : reach mark pending input read.length = some n) :
    ∃ before after, read ++ input = before ++ mark ++ after ∧ n = (before ++ mark).length := by
  induction input generalizing found pending read with
  | nil =>
    cases pending with
    | nil =>
      obtain ⟨before, rfl⟩ := hread
      obtain rfl := Option.some.inj h
      exact ⟨before, [], by simp [hmark], by simp [hmark]⟩
    | cons m pending => cases h
  | cons b input ih =>
    cases pending with
    | nil =>
      obtain ⟨before, rfl⟩ := hread
      obtain rfl := Option.some.inj h
      exact ⟨before, b :: input, by simp [hmark], by simp [hmark]⟩
    | cons m pending =>
      rw [reach] at h
      have hnext : read ++ b :: input = (read ++ [b]) ++ input := by simp
      rw [hnext]
      by_cases hb : b = m
      · subst hb
        rw [if_pos rfl] at h
        have hnow : mark = (found ++ [b]) ++ pending := by simp [hmark]
        refine ih hnow ?_ (by simpa using h)
        obtain ⟨before, rfl⟩ := hread
        exact ⟨before, by simp⟩
      · rw [if_neg hb] at h
        have hnow : mark = [] ++ mark := rfl
        exact ih hnow List.nil_suffix (by simpa using h)

theorem cutAt_eq {mark input before after : Bytes} (h : cutAt mark input = some (before, after)) :
    input = before ++ mark ++ after := by
  obtain ⟨n, hn, hparts⟩ := Option.map_eq_some_iff.mp h
  obtain ⟨hbefore, hafter⟩ := Prod.mk.inj hparts
  have hnow : mark = [] ++ mark := rfl
  obtain ⟨pre, suf, hinput, rfl⟩ := reach_eq_some hnow (List.nil_suffix (l := [])) hn
  rw [List.nil_append] at hinput
  have hlength : (pre ++ mark).length - mark.length = pre.length := by simp
  rw [hlength, hinput, List.append_assoc, List.take_left] at hbefore
  rw [hinput, List.drop_left] at hafter
  rw [hinput, hbefore, hafter]

private theorem cutAt_eq_none {mark input : Bytes} (h : ¬ mark <:+: input) :
    cutAt mark input = none := by
  cases hcut : cutAt mark input with
  | none => rfl
  | some parts =>
    obtain ⟨before, after⟩ := parts
    exact absurd ⟨before, after, (cutAt_eq hcut).symm⟩ h

private theorem reach_pending (mark pending rest : Bytes) (passed : Nat) :
    reach mark pending (pending ++ rest) passed = some (passed + pending.length) := by
  induction pending generalizing passed with
  | nil => cases rest <;> rfl
  | cons m pending ih =>
    rw [List.cons_append, reach, if_pos rfl, ih, List.length_cons, Nat.add_right_comm,
      Nat.add_assoc]

private theorem reach_skip {m : UInt8} {more text : Bytes} (h : m ∉ text) (rest : Bytes)
    (passed : Nat) :
    reach (m :: more) (m :: more) (text ++ rest) passed =
      reach (m :: more) (m :: more) rest (passed + text.length) := by
  induction text generalizing passed with
  | nil => rfl
  | cons b text ih =>
    simp only [List.mem_cons, not_or] at h
    obtain ⟨hb, htext⟩ := h
    rw [List.cons_append, reach, if_neg (Ne.symm hb), ih htext, List.length_cons]
    congr 1
    omega

theorem cutAt_append {mark text : Bytes} {m : UInt8} (hmark : mark.head? = some m) (h : m ∉ text)
    (rest : Bytes) : cutAt mark (text ++ mark ++ rest) = some (text, rest) := by
  obtain ⟨more, rfl⟩ := List.head?_eq_some_iff.mp hmark
  have hreach : reach (m :: more) (m :: more) (text ++ (m :: more) ++ rest) 0 =
      some (text.length + (m :: more).length) := by
    rw [List.append_assoc, reach_skip h, reach_pending, Nat.zero_add]
  have hlength : text.length + (m :: more).length - (m :: more).length = text.length :=
    Nat.add_sub_cancel _ _
  rw [cutAt, hreach, Option.map_some, hlength, List.append_assoc, List.take_left,
    ← List.append_assoc, ← List.length_append, List.drop_left]

theorem frames_of_none {input : Bytes} (h : frame? input = none) : frames input = [] := by
  rw [frames]
  split
  · rfl
  · simp_all

theorem frames_of_some {input rest : Bytes} {f : Frame} (h : frame? input = some (f, rest)) :
    frames input = f :: frames rest := by
  rw [frames]
  split
  · simp_all
  · rename_i f' rest' h'
    rw [h] at h'
    cases h'
    rfl

/-! ## The lines of a written block -/

private theorem flatten_pieces (size : Nat) (b : Bytes) : (Bytes.pieces size b).flatten = b := by
  fun_induction Bytes.pieces size b with
  | case1 => rfl
  | case2 b rest ih => rw [List.flatten_cons, ih, List.cons_append, List.take_append_drop]

private theorem ne_nil_of_mem_pieces {size : Nat} {b piece : Bytes}
    (h : piece ∈ Bytes.pieces size b) :
    piece ≠ [] := by
  fun_induction Bytes.pieces size b with
  | case1 => cases h
  | case2 b rest ih =>
    rcases List.mem_cons.mp h with rfl | h
    · exact List.cons_ne_nil _ _
    · exact ih h

def dataLines (contents : Bytes) : Bytes :=
  (Bytes.pieces 63 (Base64.encode contents)).flatMap (· ++ [10])

structure IsInert (b : UInt8) : Prop where
  ascii : b < 128
  ne_dash : b ≠ 45
  ne_feed : b ≠ 10
  ne_return : b ≠ 13
  not_gap : isGap b = false
  not_blank : isBlank (Bytes.asciiChar b) = false

private theorem isInert_of_isSymbol : ∀ b, Base64.isSymbol b = true → IsInert b := by
  have hbytes : ∀ b, Base64.isSymbol b = true → b < 128 ∧ b ≠ 45 ∧ b ≠ 10 ∧ b ≠ 13 ∧
      isGap b = false ∧ isBlank (Bytes.asciiChar b) = false :=
    Bytes.forall_byte (by decide +kernel)
  intro b hb
  obtain ⟨hascii, hdash, hfeed, hreturn, hgap, hblank⟩ := hbytes b hb
  exact ⟨hascii, hdash, hfeed, hreturn, hgap, hblank⟩

private theorem isInert_of_mem_pieces {contents piece : Bytes}
    (h : piece ∈ Bytes.pieces 63 (Base64.encode contents)) : ∀ b ∈ piece, IsInert b := by
  intro b hb
  refine isInert_of_isSymbol b (Base64.isSymbol_encode contents b ?_)
  rw [← flatten_pieces 63 (Base64.encode contents)]
  exact List.mem_flatten.mpr ⟨piece, h, hb⟩

private theorem mem_dataLines {contents : Bytes} {b : UInt8} (h : b ∈ dataLines contents) :
    IsInert b ∨ b = 10 := by
  obtain ⟨piece, hpiece, hb⟩ := List.mem_flatMap.mp h
  rcases List.mem_append.mp hb with hb | hb
  · exact .inl (isInert_of_mem_pieces hpiece b hb)
  · exact .inr (List.mem_singleton.mp hb)

private theorem ascii_dataLines {contents : Bytes} : ∀ b ∈ dataLines contents, b < 128 := by
  intro b hb
  rcases mem_dataLines hb with hb | rfl
  · exact hb.ascii
  · decide

theorem dash_not_mem_dataLines {contents : Bytes} : 45 ∉ dataLines contents := by
  intro h
  rcases mem_dataLines h with h | h
  · exact h.ne_dash rfl
  · exact absurd h (by decide)

private theorem filter_lines {pieces : List Bytes} (h : ∀ piece ∈ pieces, ∀ b ∈ piece, IsInert b) :
    (pieces.flatMap (· ++ [10])).filter (fun b => !isBlank (Bytes.asciiChar b)) =
      pieces.flatten := by
  induction pieces with
  | nil => rfl
  | cons piece pieces ih =>
    have hpiece : piece.filter (fun b => !isBlank (Bytes.asciiChar b)) = piece :=
      List.filter_eq_self.mpr fun b hb => by
        rw [(h piece List.mem_cons_self b hb).not_blank]
        rfl
    have hend : [(10 : UInt8)].filter (fun b => !isBlank (Bytes.asciiChar b)) = [] := by decide
    rw [List.flatMap_cons, List.filter_append, List.filter_append, hpiece, hend,
      ih fun p hp => h p (List.mem_cons_of_mem _ hp), List.append_nil, List.flatten_cons]

private theorem filter_dataLines (contents : Bytes) :
    (dataLines contents).filter (fun b => !isBlank (Bytes.asciiChar b)) =
      Base64.encode contents := by
  rw [dataLines, filter_lines fun piece h => isInert_of_mem_pieces h, flatten_pieces]

private theorem isChain_lines {pieces : List Bytes}
    (h : ∀ piece ∈ pieces, piece ≠ [] ∧ 10 ∉ piece) :
    (pieces.flatMap (· ++ [10])).IsChain fun a b => a ≠ 10 ∨ b ≠ 10 := by
  induction pieces with
  | nil => exact .nil
  | cons piece pieces ih =>
    obtain ⟨-, hplain⟩ := h piece List.mem_cons_self
    have hpiece : piece.IsChain fun a b => a ≠ 10 ∨ b ≠ 10 :=
      (List.pairwise_iff_forall_sublist.mpr fun hsub =>
        .inl fun ha => hplain (ha ▸ hsub.subset List.mem_cons_self)).isChain
    rw [List.flatMap_cons, List.isChain_append, List.isChain_append]
    refine ⟨⟨hpiece, .singleton _, fun a ha b _ => .inl ?_⟩,
      ih fun p hp => h p (List.mem_cons_of_mem _ hp), fun a _ b hb => .inr ?_⟩
    · exact fun heq => hplain (heq ▸ List.mem_of_getLast? ha)
    · cases pieces with
      | nil => cases hb
      | cons next pieces =>
        obtain ⟨hne, hnext⟩ := h next (List.mem_cons_of_mem _ List.mem_cons_self)
        obtain ⟨c, more, rfl⟩ := List.exists_cons_of_ne_nil hne
        obtain rfl : c = b := by simpa using hb
        exact fun heq => hnext (heq ▸ List.mem_cons_self)

private theorem not_infix_dataLines (contents : Bytes) : ¬ [10, 10] <:+: dataLines contents := by
  intro hwithin
  have hchain : (dataLines contents).IsChain fun a b => a ≠ 10 ∨ b ≠ 10 :=
    isChain_lines fun piece h => ⟨ne_nil_of_mem_pieces h, fun hmem =>
      (isInert_of_mem_pieces h 10 hmem).ne_feed rfl⟩
  have hpair := hchain.infix hwithin
  exact absurd hpair (by decide)

private theorem splitBody_dataLines (contents : Bytes) :
    splitBody (dataLines contents) = ([], dataLines contents) := by
  have hreturn : ¬ [13, 10, 13, 10] <:+: dataLines contents := by
    intro hwithin
    rcases mem_dataLines (hwithin.subset List.mem_cons_self) with h | h
    · exact h.ne_return rfl
    · exact absurd h (by decide)
  rw [splitBody, cutAt_eq_none (not_infix_dataLines contents), cutAt_eq_none hreturn]
  rfl

private theorem dataOf_dataLines (contents : Bytes) :
    dataOf ((dataLines contents).map Bytes.asciiChar) = some contents := by
  have hfilter : ((dataLines contents).map Bytes.asciiChar).filter (fun c => !isBlank c) =
      (Base64.encode contents).map Bytes.asciiChar := by
    rw [List.filter_map, ← filter_dataLines]
    rfl
  rw [dataOf, hfilter, Bytes.ofString_map_asciiChar, Base64.decode_encode]
  intro b hb
  exact (isInert_of_isSymbol b (Base64.isSymbol_encode contents b hb)).ascii

theorem block?_dataLines {label : String} (hlabel : label ≠ "") (contents : Bytes) :
    Frame.block? ⟨Bytes.ofString label, dataLines contents, Bytes.ofString label⟩ =
      some ⟨label, [], contents⟩ := by
  have hnone : Bytes.toString? [] = some "" := Bytes.toString?_ofString ""
  have hlines : lines (String.toList "") = [] := by decide
  simp only [Frame.block?, Bytes.toString?_ofString, splitBody_dataLines,
    Bytes.toString?_ascii ascii_dataLines, hnone, Option.bind_eq_bind, Option.bind_some]
  simp only [String.toList_ofList, dataOf_dataLines, hlines]
  simp [hlabel]

private theorem dropWhile_dataLines (contents : Bytes) :
    (dataLines contents).dropWhile isGap = dataLines contents := by
  rw [dataLines]
  cases hpieces : Bytes.pieces 63 (Base64.encode contents) with
  | nil => rfl
  | cons piece pieces =>
    have hmem : piece ∈ Bytes.pieces 63 (Base64.encode contents) := hpieces ▸ List.mem_cons_self
    obtain ⟨b, more, rfl⟩ := List.exists_cons_of_ne_nil (ne_nil_of_mem_pieces hmem)
    have hb := (isInert_of_mem_pieces hmem b List.mem_cons_self).not_gap
    simp only [List.flatMap_cons, List.cons_append]
    rw [List.dropWhile_cons_of_neg (by simp [hb])]

/-! ## Written blocks -/

section Written

variable {label : Bytes} (hlabel : 45 ∉ label)

include hlabel

theorem cutAt_dashes (rest : Bytes) :
    cutAt dashes (label ++ dashes ++ rest) = some (label, rest) :=
  cutAt_append (m := 45) (by decide) hlabel rest

private theorem frame?_beginMark (rest : Bytes) :
    frame? (beginMark ++ label ++ dashes ++ rest) = (do
      let (body, rest) ← cutAt endMark (rest.dropWhile isGap)
      let (closing, rest) ← cutAt dashes rest
      return (⟨label, body, closing⟩, rest)) := by
  have hmark : beginMark.head? = some 45 := by decide
  have hbegin := cutAt_append hmark List.not_mem_nil (label ++ dashes ++ rest)
  have hwhole : beginMark ++ label ++ dashes ++ rest =
      [] ++ beginMark ++ (label ++ dashes ++ rest) := by
    simp only [List.nil_append, List.append_assoc]
  rw [frame?, hwhole, hbegin]
  simp only [Option.bind_eq_bind, Option.bind_some, cutAt_dashes hlabel]

private theorem frame?_lines {body : Bytes} (hbody : 45 ∉ body) (rest : Bytes) :
    frame? (beginMark ++ label ++ dashes ++ (10 :: body) ++ (endMark ++ label ++ dashes) ++ rest) =
      some (⟨label, body.dropWhile isGap, label⟩, rest) := by
  have hgap : (10 :: body ++ (endMark ++ label ++ dashes ++ rest)).dropWhile isGap =
      body.dropWhile isGap ++ endMark ++ (label ++ dashes ++ rest) := by
    have hend : (endMark ++ label ++ dashes ++ rest).dropWhile isGap =
        endMark ++ label ++ dashes ++ rest := by
      rw [show endMark = 45 :: endMark.tail by decide]
      exact List.dropWhile_cons_of_neg (by decide)
    have hten : isGap 10 = true := by decide
    rw [List.cons_append, List.dropWhile_cons_of_pos hten, List.dropWhile_append]
    split
    · rename_i hall
      rw [List.isEmpty_iff.mp hall, hend]
      simp only [List.nil_append, List.append_assoc]
    · simp only [List.append_assoc]
  have hdash : 45 ∉ body.dropWhile isGap := fun hmem =>
    hbody ((List.dropWhile_suffix isGap).subset hmem)
  have hmark : endMark.head? = some 45 := by decide
  rw [List.append_assoc, List.append_assoc _ (10 :: body), frame?_beginMark hlabel, hgap]
  simp only [Option.bind_eq_bind, cutAt_append hmark hdash, Option.bind_some, cutAt_dashes hlabel]
  rfl

end Written

private theorem blocks_lines {label : String} (hfilled : label ≠ "")
    (hlabel : 45 ∉ Bytes.ofString label)
    (contents : Bytes) {rest : Bytes} (hrest : frame? rest = none) :
    blocks (beginMark ++ Bytes.ofString label ++ dashes ++ (10 :: dataLines contents) ++
      (endMark ++ Bytes.ofString label ++ dashes) ++ rest) = some [⟨label, [], contents⟩] := by
  have hdash : 45 ∉ dataLines contents := dash_not_mem_dataLines
  have hframe := frame?_lines hlabel hdash rest
  rw [dropWhile_dataLines] at hframe
  rw [blocks, frames_of_some hframe, frames_of_none hrest]
  simp [block?_dataLines hfilled]

theorem blocks_encode {label : String} (hfilled : label ≠ "")
    (hlabel : 45 ∉ Bytes.ofString label) (contents : Bytes) :
    blocks (encode label contents) = some [⟨label, [], contents⟩] := by
  have hrest : frame? [10] = none := by decide
  rw [← blocks_lines hfilled hlabel contents hrest, encode, dataLines]
  simp only [List.append_assoc, List.cons_append, List.nil_append]

/-! ## Blocks of certificates -/

private theorem opening_eq :
    TrustPool.opening = beginMark ++ Bytes.ofString "CERTIFICATE" ++ dashes := by decide

theorem closing_eq : TrustPool.closing = endMark ++ Bytes.ofString "CERTIFICATE" ++ dashes := by
  decide

theorem dash_not_mem_label : 45 ∉ Bytes.ofString "CERTIFICATE" := by decide

theorem frame?_opening (rest : Bytes) :
    frame? (TrustPool.opening ++ rest) = (do
      let (body, rest) ← cutAt endMark (rest.dropWhile isGap)
      let (closing, rest) ← cutAt dashes rest
      return (⟨Bytes.ofString "CERTIFICATE", body, closing⟩, rest)) := by
  rw [opening_eq]
  exact frame?_beginMark dash_not_mem_label rest

end Pem

namespace Certificate

open Pem

theorem firstOfPem_dataLines (contents : Bytes) :
    firstOfPem (TrustPool.opening ++ (10 :: dataLines contents) ++ TrustPool.closing) =
      ofDer contents := by
  have hnone : frame? [] = none := by decide
  have hblocks := blocks_lines (by decide) dash_not_mem_label contents hnone
  rw [List.append_nil, ← opening_eq, ← closing_eq] at hblocks
  have hlabel : "CERTIFICATE" ∈ labels := by decide
  rw [firstOfPem, hblocks]
  simp [hlabel]

theorem toPem_eq (c : Certificate) :
    c.toPem = TrustPool.opening ++ (10 :: dataLines c.encoded) ++ TrustPool.closing ++ [10] := by
  rw [toPem, encode, opening_eq, closing_eq, dataLines]
  simp only [List.append_assoc, List.cons_append, List.nil_append]

end Certificate

end TlsGate.Pki
