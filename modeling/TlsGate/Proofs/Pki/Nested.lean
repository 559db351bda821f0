import Mathlib.Tactic.Conv
import TlsGate.Proofs.Pki.Armour
import TlsGate.Proofs.Split

/-!
Blocks that reach into the next one. If the END line of a block is missing, its body has the BEGIN
line of the next block in it. Such a line is neither base64 nor a header, so the two blocks together
are no certificate.
-/

set_option autoImplicit false
set_option relaxedAutoImplicit false

namespace TlsGate.Pki

open TlsGate.Text

namespace Pem

/-! ## Lines that cannot be read -/

private theorem dataOf_eq_none {text : List Char} (h : Bytes.asciiChar 45 ∈ text) :
    dataOf text = none := by
  cases hdata : dataOf text with
  | none => rfl
  | some contents =>
    have hkept : Bytes.asciiChar 45 ∈ text.filter fun c => !isBlank c :=
      List.mem_filter.mpr ⟨h, by decide⟩
    have hdash := (Bytes.asciiChar_mem_iff (b := 45) (by decide)).mp hkept
    exact absurd (Base64.isSymbol_of_decode hdata 45 hdash) (by decide)

private theorem headerOfLine_eq_none {line : List Char} (h : ':' ∉ line) :
    headerOfLine line = none := by
  rw [headerOfLine, cutFirst_word h]

def withoutReturn (line : List Char) : List Char :=
  if line.getLast? = some '\r' then line.dropLast else line

private theorem withoutReturn_subset (line : List Char) : withoutReturn line ⊆ line := by
  unfold withoutReturn
  split
  · exact List.dropLast_subset line
  · exact List.Subset.refl line

private theorem mem_withoutReturn {line : List Char} {c : Char} (hc : c ∈ line)
    (hreturn : c ≠ '\r') :
    c ∈ withoutReturn line := by
  unfold withoutReturn
  split
  · rename_i hlast
    obtain ⟨front, rfl⟩ := List.getLast?_eq_some_iff.mp hlast
    rw [List.dropLast_concat]
    exact (List.mem_append.mp hc).resolve_right fun hend => hreturn (List.mem_singleton.mp hend)
  · exact hc

private theorem mem_lines {l word : List Char} (hword : word ∈ fields '\n' l)
    (hne : withoutReturn word ≠ []) : withoutReturn word ∈ lines l := by
  have hpart : withoutReturn word ∈ (fields '\n' l).map withoutReturn := List.mem_map_of_mem hword
  have hlines : lines l = if ((fields '\n' l).map withoutReturn).getLast? = some [] then
      ((fields '\n' l).map withoutReturn).dropLast else (fields '\n' l).map withoutReturn := rfl
  rw [hlines]
  split
  · rename_i hlast
    obtain ⟨front, hfront⟩ := List.getLast?_eq_some_iff.mp hlast
    rw [hfront] at hpart ⊢
    rw [List.dropLast_concat]
    exact (List.mem_append.mp hpart).resolve_right fun hend => hne (List.mem_singleton.mp hend)
  · exact hpart

private theorem mapM_headerOfLine_eq_none {lines : List (List Char)} {line : List Char}
    (hline : line ∈ lines) (h : headerOfLine line = none) : lines.mapM headerOfLine = none := by
  induction lines with
  | nil => cases hline
  | cons first others ih =>
    rw [List.mapM_cons]
    rcases List.mem_cons.mp hline with rfl | hline
    · rw [h]
      rfl
    · rw [ih hline]
      cases headerOfLine first <;> rfl

private theorem exists_mem_fields {l : List Char} {x y z : Bytes}
    (h : Bytes.ofString (String.ofList l) = x ++ y ++ z) (hx : IsLined x) (hy : 10 ∉ y)
    (hz : z = [] ∨ z.head? = some 10) :
    ∃ word ∈ fields '\n' l, Bytes.ofString (String.ofList word) = y := by
  have hten : Bytes.asciiChar 10 = '\n' := by decide
  have hplain {word : List Char} (hword : Bytes.ofString (String.ofList word) = y) :
      '\n' ∉ word := fun hmem =>
    hy (hword ▸ (Bytes.asciiChar_mem_iff (b := 10) (by decide)).mp hmem)
  -- The line is the first one of what stands behind `x`.
  have hfirst {rest : List Char} (hrest : Bytes.ofString (String.ofList rest) = y ++ z) :
      ∃ word ∈ fields '\n' rest, Bytes.ofString (String.ofList word) = y := by
    rcases hz with rfl | hz
    · rw [List.append_nil] at hrest
      exact ⟨rest, by rw [fields_word (hplain hrest)]; exact List.mem_singleton_self _, hrest⟩
    · obtain ⟨more, rfl⟩ := List.head?_eq_some_iff.mp hz
      obtain ⟨word, others, rfl, hword, -⟩ := Bytes.exists_split (b := 10) (by decide) hrest
      exact ⟨word, by rw [hten, fields_append (hplain hword)]; exact List.mem_cons_self, hword⟩
  rcases hx with rfl | hx
  · exact hfirst (by simpa using h)
  · obtain ⟨front, rfl⟩ := List.getLast?_eq_some_iff.mp hx
    have hcut : Bytes.ofString (String.ofList l) = front ++ 10 :: (y ++ z) := by
      rw [h]
      simp only [List.append_assoc, List.cons_append, List.nil_append]
    obtain ⟨before, rest, rfl, -, hrest⟩ := Bytes.exists_split (b := 10) (by decide) hcut
    obtain ⟨word, hword, hbytes⟩ := hfirst hrest
    refine ⟨word, ?_, hbytes⟩
    rw [hten, fields_append_fields]
    exact List.mem_append_right _ hword

/-! ## Bodies with a BEGIN line -/

private theorem headers_eq_none {x y : Bytes} {l : List Char} (hx : 58 ∉ lastLine x)
    (hy : 58 ∉ firstLine y)
    (h : Bytes.ofString (String.ofList l) = x ++ TrustPool.opening ++ y) :
    (lines l).mapM headerOfLine = none := by
  obtain ⟨front, hfront, hlined⟩ := exists_append_lastLine x
  obtain ⟨rest, hrest, hend⟩ := exists_firstLine_append y
  have hsplit : x ++ TrustPool.opening ++ y =
      front ++ (lastLine x ++ TrustPool.opening ++ firstLine y) ++ rest := by
    conv_lhs => rw [hfront, hrest]
    simp only [List.append_assoc]
  have hline : 10 ∉ lastLine x ++ TrustPool.opening ++ firstLine y := by
    have hopening : 10 ∉ TrustPool.opening := by decide
    simp [not_mem_lastLine, hopening, not_mem_firstLine]
  obtain ⟨word, hword, hbytes⟩ := exists_mem_fields (h.trans hsplit) hlined hline hend
  have hcolon : ':' ∉ word := by
    intro hmem
    have hbyte := (Bytes.asciiChar_mem_iff (b := 58) (by decide)).mp hmem
    have hopening : 58 ∉ TrustPool.opening := by decide
    simp [hbytes, hx, hopening, hy] at hbyte
  have hdash : Bytes.asciiChar 45 ∈ word := by
    have hopening : 45 ∈ TrustPool.opening := by decide
    rw [Bytes.asciiChar_mem_iff (by decide), hbytes]
    simp [hopening]
  have hkept := mem_withoutReturn hdash (by decide)
  exact mapM_headerOfLine_eq_none (mem_lines hword (List.ne_nil_of_mem hkept))
    (headerOfLine_eq_none fun hmem => hcolon (withoutReturn_subset word hmem))

private theorem splitBody_cases {body headers data : Bytes} (h : splitBody body = (headers, data)) :
    (headers = [] ∧ data = body) ∨
      ∃ gap : Bytes, (∀ b ∈ gap, b = 10 ∨ b = 13) ∧ gap ≠ [] ∧ body = headers ++ gap ++ data := by
  unfold splitBody at h
  split at h
  · rename_i parts hcut
    subst h
    exact .inr ⟨[10, 10], by simp, by simp, cutAt_eq hcut⟩
  · cases hcut : cutAt [13, 10, 13, 10] body with
    | none =>
      rw [hcut] at h
      obtain ⟨rfl, rfl⟩ := Prod.mk.inj h
      exact .inl ⟨rfl, rfl⟩
    | some parts =>
      rw [hcut] at h
      subst h
      exact .inr ⟨[13, 10, 13, 10], by simp, by simp, cutAt_eq hcut⟩

private theorem splitBody_nested {x y headers data : Bytes}
    (h : splitBody (x ++ TrustPool.opening ++ y) = (headers, data)) :
    45 ∈ data ∨ ∃ y', y' <+: y ∧ headers = x ++ TrustPool.opening ++ y' := by
  have hdash : 45 ∈ TrustPool.opening := by decide
  rcases splitBody_cases h with ⟨-, rfl⟩ | ⟨gap, hgap, hne, hbody⟩
  · exact .inl (by simp [hdash])
  · have hin (h : 45 ∈ gap ++ data) : 45 ∈ data := by
      rcases List.mem_append.mp h with h | h
      · exact absurd (hgap 45 h) (by decide)
      · exact h
    rw [List.append_assoc, List.append_assoc, List.append_eq_append_iff] at hbody
    rcases hbody with ⟨more, rfl, hrest⟩ | ⟨more, rfl, hrest⟩
    · -- The line begins in the headers, so the empty line is behind it.
      rcases List.append_eq_append_iff.mp hrest with ⟨y', rfl, hy⟩ | ⟨part, hopening, hpart⟩
      · exact .inr ⟨y', ⟨_, hy.symm⟩, by rw [List.append_assoc]⟩
      · cases part with
        | nil =>
          rw [List.append_nil] at hopening
          exact .inr ⟨[], List.nil_prefix, by rw [← hopening, List.append_nil]⟩
        | cons b part =>
          obtain ⟨c, gap, rfl⟩ := List.exists_cons_of_ne_nil hne
          obtain ⟨rfl, -⟩ := List.cons.inj hpart
          have hb : c ∈ TrustPool.opening := by simp [hopening]
          rcases hgap c List.mem_cons_self with rfl | rfl <;> exact absurd hb (by decide)
    · exact .inl (hin (by rw [hrest]; simp [hdash]))

private theorem block?_eq_some {f : Frame} {block : Block} (h : f.block? = some block) :
    f.opening = Bytes.ofString block.label ∧ f.closing = Bytes.ofString block.label ∧
      ∃ headers data, splitBody f.body = (Bytes.ofString headers, Bytes.ofString data) ∧
        dataOf data.toList = some block.contents ∧
        (lines headers.toList).mapM headerOfLine = some block.headers := by
  simp only [Frame.block?, Option.bind_eq_bind, Option.bind_eq_some_iff] at h
  obtain ⟨label, hlabel, closing, hclosing, h⟩ := h
  split at h
  · cases h
  · rename_i hsame
    simp only [Option.bind_eq_some_iff] at h
    obtain ⟨data, hdata, contents, hcontents, headers, hheaders, parsed, hparsed, hblock⟩ := h
    obtain rfl := Option.some.inj hblock
    simp only [Bool.or_eq_true, bne_iff_ne, ne_eq, not_or, not_not] at hsame
    obtain ⟨-, rfl⟩ := hsame
    refine ⟨(Bytes.ofString_of_toString? hlabel).symm, (Bytes.ofString_of_toString? hclosing).symm,
      headers, data, ?_, hcontents, hparsed⟩
    rw [Bytes.ofString_of_toString? hdata, Bytes.ofString_of_toString? hheaders]

private theorem block?_nested {x y label closing : Bytes} (hx : 58 ∉ lastLine x)
    (hy : 58 ∉ firstLine y) :
    Frame.block? ⟨label, x ++ TrustPool.opening ++ y, closing⟩ = none := by
  cases hblock : Frame.block? ⟨label, x ++ TrustPool.opening ++ y, closing⟩ with
  | none => rfl
  | some block =>
    obtain ⟨-, -, headers, data, hsplit, hdata, hheaders⟩ := block?_eq_some hblock
    rcases splitBody_nested hsplit with hdash | ⟨y', hstart, hbytes⟩
    · rw [← String.ofList_toList (s := data), ← Bytes.asciiChar_mem_iff (by decide)] at hdash
      rw [dataOf_eq_none hdash] at hdata
      cases hdata
    · have hline : 58 ∉ firstLine y' := fun hmem => hy (firstLine_subset hstart hmem)
      rw [← String.ofList_toList (s := headers)] at hbytes
      rw [headers_eq_none hx hline hbytes] at hheaders
      cases hheaders

private theorem dropWhile_isGap_append {x y : Bytes} (hy : y.dropWhile isGap = y) :
    (x ++ y).dropWhile isGap = x.dropWhile isGap ++ y := by
  rw [List.dropWhile_append]
  split
  · rename_i hall
    rw [List.isEmpty_iff.mp hall, hy, List.nil_append]
  · rfl

private theorem dropWhile_opening (rest : Bytes) :
    (TrustPool.opening ++ rest).dropWhile isGap = TrustPool.opening ++ rest := by
  rw [List.dropWhile_append, if_neg (by decide)]
  rfl

private theorem opening_of_frame? {text rest : Bytes} {f : Frame}
    (hframe : frame? (TrustPool.opening ++ text) = some (f, rest)) :
    f.opening = Bytes.ofString "CERTIFICATE" := by
  rw [frame?_opening] at hframe
  simp only [Option.bind_eq_bind, Option.bind_eq_some_iff, Prod.exists] at hframe
  obtain ⟨_, _, -, _, _, -, hf⟩ := hframe
  obtain ⟨rfl, -⟩ := Prod.mk.inj (Option.some.inj hf)
  rfl

private theorem body_of_frame? {text rest : Bytes} {f : Frame}
    (hclear : IsClear TrustPool.closing (text.dropWhile isGap))
    (hframe : frame? (TrustPool.opening ++ text ++ TrustPool.closing) = some (f, rest))
    (hlabel : f.closing = Bytes.ofString "CERTIFICATE") : f.body = text.dropWhile isGap := by
  rw [List.append_assoc, frame?_opening, dropWhile_isGap_append (by decide)] at hframe
  simp only [Option.bind_eq_bind, Option.bind_eq_some_iff, Prod.exists] at hframe
  obtain ⟨body, behind, hbody, closing, rest, hclosing, hf⟩ := hframe
  obtain ⟨rfl, rfl⟩ := Prod.mk.inj (Option.some.inj hf)
  dsimp only at hlabel ⊢
  subst hlabel
  have hwhole : text.dropWhile isGap ++ TrustPool.closing = body ++ TrustPool.closing ++ rest := by
    rw [cutAt_eq hbody, cutAt_eq hclosing, closing_eq]
    simp only [List.append_assoc]
  exact (hclear.eq_of_append (by decide) hwhole).1.symm

end Pem

namespace Certificate

open Pem

private theorem firstOfPem_of_first {file : Bytes}
    (h : ∀ f rest, frame? file = some (f, rest) → f.block? = none) :
    firstOfPem file = .error .malformed := by
  cases hframe : frame? file with
  | none =>
    rw [firstOfPem, blocks, frames_of_none hframe]
    rfl
  | some found =>
    have hnone : blocks file = none := by
      rw [blocks, frames_of_some hframe, List.mapM_cons, h _ _ hframe]
      rfl
    rw [firstOfPem, hnone]
    rfl

theorem firstOfPem_nested {x y : Bytes} (hx : 58 ∉ lastLine x) (hy : 58 ∉ firstLine y)
    (hclear : IsClear TrustPool.closing (x ++ TrustPool.opening ++ y)) :
    firstOfPem (TrustPool.opening ++ (x ++ TrustPool.opening ++ y) ++ TrustPool.closing) =
      .error .malformed := by
  have hgaps : (x ++ TrustPool.opening ++ y).dropWhile isGap =
      x.dropWhile isGap ++ TrustPool.opening ++ y := by
    rw [List.append_assoc, dropWhile_isGap_append (dropWhile_opening y), List.append_assoc]
  refine firstOfPem_of_first fun f rest hframe => ?_
  cases hblock : f.block? with
  | none => rfl
  | some block =>
    obtain ⟨hopening, hclosing, -⟩ := block?_eq_some hblock
    have hlabel : f.closing = Bytes.ofString "CERTIFICATE" := by
      rw [List.append_assoc] at hframe
      rw [hclosing, ← hopening, opening_of_frame? hframe]
    have hbody := body_of_frame? (hclear.of_suffix (List.dropWhile_suffix isGap)) hframe hlabel
    obtain ⟨opening, body, closing⟩ := f
    dsimp only at hbody
    have hline : 58 ∉ lastLine (x.dropWhile isGap) := fun hmem =>
      hx (lastLine_subset (List.dropWhile_suffix isGap) hmem)
    rw [hbody, hgaps, block?_nested hline hy] at hblock
    cases hblock

theorem firstOfPem_empty (rest : Bytes) :
    firstOfPem (TrustPool.opening ++ TrustPool.closing ++ rest) = .error .malformed := by
  have hframe : frame? (TrustPool.opening ++ TrustPool.closing ++ rest) =
      some (⟨Bytes.ofString "CERTIFICATE", [], Bytes.ofString "CERTIFICATE"⟩, rest) := by
    have hgap : (TrustPool.closing ++ rest).dropWhile isGap =
        [] ++ endMark ++ (Bytes.ofString "CERTIFICATE" ++ dashes ++ rest) := by
      rw [List.dropWhile_append, if_neg (by decide), closing_eq, List.nil_append,
        ← List.append_assoc, ← List.append_assoc]
      rfl
    rw [List.append_assoc, frame?_opening, hgap]
    have hmark : endMark.head? = some 45 := by decide
    simp only [Option.bind_eq_bind, Option.bind_some, cutAt_dashes dash_not_mem_label,
      cutAt_append hmark List.not_mem_nil]
    rfl
  have hblock : Frame.block? ⟨Bytes.ofString "CERTIFICATE", [], Bytes.ofString "CERTIFICATE"⟩ =
      some ⟨"CERTIFICATE", [], []⟩ := by
    have hlines : dataLines [] = [] := by decide +kernel
    have hfilled : "CERTIFICATE" ≠ "" := by decide
    have hwritten := block?_dataLines hfilled []
    rwa [hlines] at hwritten
  have hempty : ofDer [] = .error .malformed := by decide +kernel
  have hlabel : "CERTIFICATE" ∈ labels := by decide
  rw [firstOfPem, blocks, frames_of_some hframe, List.mapM_cons, hblock]
  cases (frames rest).mapM Frame.block? with
  | none => rfl
  | some others => simp [hlabel, hempty]

end Certificate

end TlsGate.Pki
