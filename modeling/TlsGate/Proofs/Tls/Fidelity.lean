import TlsGate.Proofs.Tls.Traffic
import TlsGate.Tls.Session

/-!
The engine for one connection is faithful. What a client has sealed is opened record by record, in
whatever pieces the records arrive, and a closure alert stands behind all of it; what the engine
seals, the client reads as the data that the engine was given.
-/

set_option autoImplicit false
set_option relaxedAutoImplicit false

namespace TlsGate.Tls

namespace Record

/-! ## Records on the wire -/

/-- Data in sealed records and a closure alert behind them; what follows it does not matter. -/
inductive Sealed : Bytes → Bytes → Prop
  | closed (rest : Bytes) : Sealed (closure ++ rest) []
  | record {content rest data : Bytes} (h : content.length ≤ most) :
      Sealed rest data → Sealed (sealed dataKind content ++ rest) (content ++ data)

section First

variable {fits : UInt8 → UInt8 → Bool} {slack : Nat} {kind : UInt8} {payload b more rest : Bytes}

private theorem first_frame (hfits : fits kind 3 = true) (hslack : slack ≤ 2048)
    (hlength : payload.length ≤ most + slack) (rest : Bytes) :
    first fits slack (frame kind payload ++ rest) = .record kind payload rest := by
  have hmost : most = 16384 := rfl
  have hhigh : (payload.length / 256).toUInt8.toNat = payload.length / 256 := by
    rw [Nat.toUInt8, UInt8.toNat_ofNat', Nat.mod_eq_of_lt]
    omega
  have hlow : (payload.length % 256).toUInt8.toNat = payload.length % 256 := by
    rw [Nat.toUInt8, UInt8.toNat_ofNat', Nat.mod_eq_of_lt]
    omega
  have hcount : 256 * (payload.length / 256) + payload.length % 256 = payload.length :=
    Nat.div_add_mod _ _
  have hshort : ¬ most + slack < payload.length := by omega
  simp only [frame, List.cons_append, first, hhigh, hlow, hcount, hfits, List.length_append]
  simp [hshort]

private theorem first_of_append (h : first fits slack (b ++ more) = .record kind payload rest) :
    first fits slack b = .more ∧ more ≠ [] ∨
      ∃ left, first fits slack b = .record kind payload left ∧ left ++ more = rest := by
  have hmore (hnone : first fits slack b = .more) : more ≠ [] := by
    rintro rfl
    rw [List.append_nil, hnone] at h
    cases h
  by_cases hheader : ∃ k major minor high low tail,
      b = k :: major :: minor :: high :: low :: tail
  · obtain ⟨k, major, minor, high, low, tail, rfl⟩ := hheader
    simp only [List.cons_append, first] at h
    split at h
    · cases h
    · rename_i hgood
      split at h
      · cases h
      · rename_i hlong
        obtain ⟨rfl, rfl, rfl⟩ := Found.record.inj h
        by_cases hshort : tail.length < 256 * high.toNat + low.toNat
        · left
          have hnone : first fits slack (k :: major :: minor :: high :: low :: tail) = .more := by
            simp only [first, if_neg hgood, if_pos hshort]
          exact ⟨hnone, hmore hnone⟩
        · right
          refine ⟨tail.drop (256 * high.toNat + low.toNat), ?_, ?_⟩
          · simp only [first, if_neg hgood, if_neg hshort]
            rw [List.take_append_of_le_length (Nat.not_lt.1 hshort)]
          · rw [List.drop_append_of_le_length (Nat.not_lt.1 hshort)]
  · have hnone : first fits slack b = .more := by
      unfold first
      split
      · exact absurd ⟨_, _, _, _, _, _, rfl⟩ hheader
      · rfl
    exact .inl ⟨hnone, hmore hnone⟩

private theorem firstPlain_of_frame (hlength : payload.length ≤ most)
    (h : b ++ more = frame kind payload ++ rest) :
    firstPlain b = .more ∧ more ≠ [] ∨
      ∃ left, firstPlain b = .record kind payload left ∧ left ++ more = rest := by
  apply first_of_append
  rw [h]
  exact first_frame rfl (by decide) (Nat.le_add_right_of_le hlength) rest

private theorem firstSealed_of_sealed (v : Version) {content : Bytes}
    (hlength : content.length ≤ most)
    (h : b ++ more = sealed kind content ++ rest) :
    firstSealed v b = .more ∧ more ≠ [] ∨
      ∃ left, firstSealed v b = .record dataKind (tag ++ kind :: content) left ∧
        left ++ more = rest := by
  have htag : (tag ++ kind :: content).length = content.length + 17 := by
    have : tag.length = 16 := rfl
    rw [List.length_append, List.length_cons]
    omega
  cases v with
  | v12 =>
    apply first_of_append
    rw [h]
    exact first_frame rfl (Nat.le_refl _) (by omega) rest
  | v13 =>
    apply first_of_append
    rw [h]
    exact first_frame rfl (by decide) (by omega) rest

private theorem unseal?_tag (content : Bytes) :
    unseal? (tag ++ kind :: content) = some (kind, content) := by
  have hprefix : tag.isPrefixOf (tag ++ kind :: content) = true :=
    List.isPrefixOf_iff_prefix.2 (List.prefix_append _ _)
  rw [unseal?, if_pos hprefix, List.drop_left]

end First

/-! ## What a client reads -/

private theorem dataOf_sealed {content : Bytes} (hlength : content.length ≤ most) (more : Bytes) :
    dataOf (sealed dataKind content ++ more) = content ++ dataOf more := by
  have hfirst : first (fun _ _ => true) 2048 (sealed dataKind content ++ more) =
      .record dataKind (tag ++ dataKind :: content) more := by
    refine first_frame rfl (Nat.le_refl _) ?_ more
    have htag : tag.length = 16 := rfl
    rw [List.length_append, List.length_cons]
    omega
  rw [dataOf]
  split
  · rename_i hfound
    rw [hfirst] at hfound
    obtain ⟨rfl, rfl, rfl⟩ := Found.record.inj hfound
    simp only [unseal?_tag, if_true]
  · rename_i hnone
    exact absurd hfirst (hnone _ _ _)

private theorem dataOf_frame {kind : UInt8} {payload : Bytes} (hlength : payload.length ≤ most)
    (hopen : unseal? payload = none) (more : Bytes) :
    dataOf (frame kind payload ++ more) = dataOf more := by
  have hfirst : first (fun _ _ => true) 2048 (frame kind payload ++ more) =
      .record kind payload more :=
    first_frame rfl (Nat.le_refl _) (Nat.le_add_right_of_le hlength) more
  rw [dataOf]
  split
  · rename_i hfound
    rw [hfirst] at hfound
    obtain ⟨rfl, rfl, rfl⟩ := Found.record.inj hfound
    simp only [hopen, List.nil_append]
  · rename_i hnone
    exact absurd hfirst (hnone _ _ _)

private theorem dataOf_ofData (data more : Bytes) : dataOf
    (ofData data ++ more) = data ++ dataOf more := by
  unfold ofData
  fun_induction Bytes.pieces (most - 1) data with
  | case1 => rfl
  | case2 b rest ih =>
    have hlength : (b :: rest.take (most - 1)).length ≤ most := by
      have hmost : most = 16384 := rfl
      rw [List.length_cons, List.length_take]
      omega
    rw [List.flatMap_cons, List.append_assoc, dataOf_sealed hlength, ih, List.cons_append,
      ← List.append_assoc, List.take_append_drop, List.cons_append]

def ReadsAs (emitted data : Bytes) : Prop := ∀ more, dataOf (emitted ++ more) = data ++ dataOf more

private theorem ReadsAs.dataOf_eq {emitted data : Bytes} (h : ReadsAs emitted data) :
    dataOf emitted = data := by
  have hempty : dataOf [] = [] := by
    rw [dataOf]
    rfl
  have hend := h []
  rwa [List.append_nil, hempty, List.append_nil] at hend

theorem ReadsAs.append {b b' data data' : Bytes} (h : ReadsAs b data) (h' : ReadsAs b' data') :
    ReadsAs (b ++ b') (data ++ data') := by
  intro more
  rw [List.append_assoc, h, h', List.append_assoc]

private theorem readsAs_nil : ReadsAs [] [] := fun _ => rfl

private theorem readsAs_hello : ReadsAs hello [] := dataOf_frame (by decide) (by decide)

private theorem readsAs_finished : ReadsAs finished [] := dataOf_frame (by decide) (by decide)

private theorem readsAs_ofData (data : Bytes) : ReadsAs (ofData data) data := dataOf_ofData data

end Record

namespace Session

open Record

/-! ## The engine -/

/-- An established engine with its traffic: what it has opened and what is sealed in its input, and
in what is arriving, are the data that the client has written. -/
structure Serves (whole : Bool) (s : Session) (t : Traffic) : Prop where
  phase : s.phase = .established
  oneRecord : s.oneRecord = !whole
  running : s.inputEnded = false
  holds : ∃ data, Sealed (s.input ++ t.arriving) data ∧ t.plain = s.plain ++ data
  read : ReadsAs t.emitted t.taken

def lacking : Phase → Option Bytes
  | .start => some (hello ++ finished)
  | .greeted => some finished
  | _ => none

structure Greets (whole : Bool) (s : Session) (t : Traffic) : Prop where
  oneRecord : s.oneRecord = !whole
  running : s.inputEnded = false
  plain : s.plain = []
  holds : ∃ part rest, lacking s.phase = some part ∧ s.input ++ t.arriving = part ++ rest ∧
    Sealed rest t.plain
  taken : t.taken = []
  read : ReadsAs t.emitted []

variable {whole : Bool} {s : Session} {t : Traffic}

private theorem emit_nil (t : Traffic) : t.emit [] = t := by simp only
    [Traffic.emit, List.append_nil]

private theorem await_admits {α : Type} {c : Course Session α} (hrunning : s.inputEnded = false)
    (harriving : t.arriving ≠ []) (hgoing : c.going s t) : c.Admits t s.await := by
  have hawait : s.await = ({ attempt := .wantRead, next := s } : Step Session α) := by
    simp only [await, hrunning, Bool.not_false, if_true]
  rw [hawait]
  refine ⟨harriving, ?_⟩
  rw [emit_nil]
  exact hgoing

private theorem admits_emitted {α : Type} {c : Course Session α} {b : Bytes} {step : Step Session α}
    (h : c.Admits (t.emit b) step) : c.Admits t { step with emitted := b ++ step.emitted } := by
  have hemit : (t.emit b).emit step.emitted = t.emit (b ++ step.emitted) := by
    simp only [Traffic.emit, List.append_assoc]
  simp only [Course.Admits, hemit] at h ⊢
  exact h

private theorem fail_admits (fault : EngineFault) :
    (greeting (Greets whole) (Serves whole)).Admits t (s.fail fault) := trivial

private theorem conclude_admits (h : Greets whole s t) (hphase : s.phase = .greeted) :
    (greeting (Greets whole) (Serves whole)).Admits t s.conclude := by
  obtain ⟨part, rest, hpart, hinput, hsealed⟩ := h.holds
  rw [hphase] at hpart
  obtain rfl : finished = part := Option.some.inj hpart
  rcases firstPlain_of_frame (by decide) hinput with ⟨hmore, harriving⟩ | ⟨left, hrecord, hleft⟩
  · have hwait : s.conclude = s.await := by rw [conclude, hmore]
    rw [hwait]
    exact await_admits h.running harriving h
  · by_cases hadmits : s.admits = true
    · have hdone : s.conclude =
          { attempt := .done ()
            emitted := finished
            next := { s with phase := .established, input := left } } := by
        simp [conclude, hrecord, hadmits]
      rw [hdone]
      refine ⟨rfl, h.oneRecord, h.running, ⟨t.plain, ?_, ?_⟩, ?_⟩
      · rw [← hleft] at hsealed
        exact hsealed
      · rw [h.plain]
        rfl
      · show ReadsAs (t.emitted ++ finished) t.taken
        rw [h.taken]
        exact h.read.append readsAs_finished
    · have hfail : s.conclude = s.fail .peerRefused := by
        simp [conclude, hrecord, hadmits]
      rw [hfail]
      exact fail_admits .peerRefused

private theorem handshake_admits (h : Greets whole s t) :
    (greeting (Greets whole) (Serves whole)).Admits t s.handshake := by
  obtain ⟨part, rest, hpart, hinput, hsealed⟩ := h.holds
  cases hphase : s.phase with
  | established =>
    rw [hphase] at hpart
    cases hpart
  | failed =>
    rw [hphase] at hpart
    cases hpart
  | greeted =>
    have hconclude : s.handshake = s.conclude := by rw [handshake, hphase]
    rw [hconclude]
    exact conclude_admits h hphase
  | start =>
    rw [hphase] at hpart
    obtain rfl : hello ++ finished = part := Option.some.inj hpart
    rw [List.append_assoc] at hinput
    rcases firstPlain_of_frame (by decide) hinput with ⟨hmore, harriving⟩ | ⟨left, hrecord, hleft⟩
    · have hwait : s.handshake = s.await := by simp only [handshake, hphase, hmore]
      rw [hwait]
      exact await_admits h.running harriving h
    · cases hanswer : s.greeting? with
      | none =>
        have hfail : s.handshake = s.fail .noAgreement := by
          simp [handshake, hphase, hrecord, hanswer]
        rw [hfail]
        exact fail_admits .noAgreement
      | some answer =>
        have hgreets : Greets whole { s with phase := .greeted, input := left } (t.emit hello) :=
          ⟨h.oneRecord, h.running, h.plain, ⟨finished, rest, rfl, hleft, hsealed⟩, h.taken,
            h.read.append readsAs_hello⟩
        have hdone : s.handshake =
            { conclude { s with phase := .greeted, input := left } with
              emitted :=
                hello ++ (conclude { s with phase := .greeted, input := left }).emitted } := by
          simp [handshake, hphase, hrecord, hanswer]
        rw [hdone]
        exact admits_emitted (conclude_admits hgreets rfl)

/-- What an engine may find at the front of its input when it has given out all that it has opened:
if not a whole record, then more is arriving, and if a record, then data or the closure alert. -/
def Front (t : Traffic) : Found → Prop
  | .more => t.arriving ≠ []
  | .bad => False
  | .record _ payload left => ∃ kind content, unseal? payload = some (kind, content) ∧
      (kind = alertKind ∧ t.plain = [] ∨
        kind = dataKind ∧ ∃ rest, Sealed (left ++ t.arriving) rest ∧ t.plain = content ++ rest)

theorem Serves.front (h : Serves whole s t) (hopened : ¬ s.plain ≠ []) {found : Found}
    (hfound : firstSealed s.version s.input = found) : Front t found := by
  subst hfound
  obtain ⟨data, hsealed, hplain⟩ := h.holds
  rw [Decidable.not_not.1 hopened, List.nil_append] at hplain
  generalize hinput : s.input ++ t.arriving = input at hsealed
  -- the next record of the client is at the front, or a part of it with more to arrive
  cases hsealed with
  | closed rest =>
    rcases firstSealed_of_sealed s.version (by decide) hinput with
      ⟨hmore, harriving⟩ | ⟨left, hfound, -⟩
    · rw [hmore]
      exact harriving
    · rw [hfound]
      exact ⟨_, _, unseal?_tag _, .inl ⟨rfl, hplain⟩⟩
  | @record content rest data hlength hrest =>
    rcases firstSealed_of_sealed s.version hlength hinput with
      ⟨hmore, harriving⟩ | ⟨left, hfound, hleft⟩
    · rw [hmore]
      exact harriving
    · rw [hfound]
      exact ⟨_, _, unseal?_tag _, .inr ⟨rfl, data, hleft ▸ hrest, hplain⟩⟩

theorem Front.last {kind : UInt8} {payload left content : Bytes}
    (h : Front t (.record kind payload left))
    (halert : unseal? payload = some (alertKind, content)) : t.plain = [] := by
  obtain ⟨kind', content', hopen, ⟨-, hlast⟩ | ⟨hdata, -⟩⟩ := h
  · exact hlast
  · cases halert.symm.trans hopen
    cases hdata

theorem Front.others {kind kind' : UInt8} {payload left content : Bytes}
    (h : Front t (.record kind payload left)) (hopen : unseal? payload = some (kind', content))
    (hkind : kind' ≠ alertKind) :
    ∃ rest, Sealed (left ++ t.arriving) rest ∧ t.plain = content ++ rest := by
  obtain ⟨kind'', content', hopen', ⟨halert, -⟩ | ⟨-, hothers⟩⟩ := h
  · cases hopen.symm.trans hopen'
    exact absurd halert hkind
  · cases hopen.symm.trans hopen'
    exact hothers

theorem Serves.opened (h : Serves whole s t) {content left : Bytes}
    (hothers : ∃ rest, Sealed (left ++ t.arriving) rest ∧ t.plain = content ++ rest) :
    Serves whole { s with input := left, plain := content } t :=
  ⟨h.phase, h.oneRecord, h.running, hothers, h.read⟩

theorem Serves.gives (h : Serves whole s t) (hopened : s.plain ≠ []) {size : Nat}
    (hsize : 0 < size) :
    (receiving (Serves whole)).Admits t
      { attempt := .done (s.plain.take size), next := { s with plain := s.plain.drop size } } := by
  obtain ⟨data, hsealed, hdata⟩ := h.holds
  have htake : s.plain.take size ≠ [] := by
    simp only [ne_eq, List.take_eq_nil_iff, hopened, or_false]
    omega
  refine ⟨htake, s.plain.drop size ++ data, ?_, h.phase, h.oneRecord, h.running, ?_, ?_⟩
  · rw [← List.append_assoc, List.take_append_drop]
    exact hdata
  · exact ⟨data, hsealed, rfl⟩
  · rw [emit_nil]
    exact h.read

private theorem receive_admits {size : Nat} (hsize : 0 < size) (h : Serves whole s t) :
    (receiving (Serves whole)).Admits t (s.receive size) := by
  fun_induction Session.receive size s with
  | case1 s hphase =>
    rw [h.phase] at hphase
    cases hphase
  | case2 s hphase hplain => exact h.gives hplain hsize
  | case3 s hphase hplain hfound =>
    exact await_admits h.running (h.front hplain hfound) h
  | case4 s hphase hplain hfound => exact (h.front hplain hfound).elim
  | case5 s hphase hplain kind payload rest hfound hseal =>
    obtain ⟨kind', content, hopen, -⟩ := h.front hplain hfound
    cases hseal.symm.trans hopen
  | case6 s hphase hplain kind payload rest hfound content hopen =>
    refine ⟨(h.front hplain hfound).last hopen, ?_⟩
    rw [emit_nil]
    exact h
  | case7 s hphase hplain kind payload rest hfound kind' hkind hopen ih =>
    have hopened := h.opened ((h.front hplain hfound).others hopen hkind)
    rw [← Decidable.not_not.1 hplain] at hopened
    exact ih hopened
  | case8 s hphase hplain kind payload rest hfound kind' content hopen hkind hcontent =>
    have hopened := h.opened ((h.front hplain hfound).others hopen hkind)
    exact hopened.gives hcontent hsize

/-- What an engine takes of some data: a part at their front, if not all of them. -/
def taken (s : Session) (data : Bytes) : Bytes := if s.oneRecord then data.take most else data

private theorem taken_prefix (s : Session) (data : Bytes) : s.taken data <+: data := by
  unfold taken
  split
  · exact List.take_prefix most data
  · exact List.prefix_rfl

private theorem taken_ne_nil (s : Session) {data : Bytes} (hdata : data ≠ []) : s.taken data ≠
    [] := by
  have hmost : most ≠ 0 := by decide
  unfold taken
  split
  · simp only [ne_eq, List.take_eq_nil_iff, hmost, hdata, or_self, not_false_iff]
  · exact hdata

private theorem send_admits {data : Bytes} (hdata : data ≠ []) (h : Serves whole s t) :
    (sending (Serves whole) whole data).Admits t (s.send data) := by
  have hphase : ¬ s.phase ≠ .established := not_not_intro h.phase
  have hsend : s.send data =
      { attempt := .done (s.taken data).length, emitted := ofData (s.taken data), next := s } := by
    simp only [Session.send, if_neg hphase, taken]
  rw [hsend]
  refine ⟨List.length_pos_iff.2 (s.taken_ne_nil hdata), ?_, h.phase, h.oneRecord, h.running,
    h.holds, ?_⟩
  · intro hwhole
    have hall : s.taken data = data := by
      rw [taken, h.oneRecord, hwhole]
      rfl
    rw [hall]
  · rw [← List.prefix_iff_eq_take.1 (s.taken_prefix data)]
    exact h.read.append (readsAs_ofData _)

theorem faithful (whole : Bool) : engine.Faithful (Greets whole) (Serves whole) whole dataOf where
  feedGreeting := by
    rintro s t b rest h harriving
    obtain ⟨part, others, hpart, hinput, hsealed⟩ := h.holds
    refine ⟨h.oneRecord, h.running, h.plain, ⟨part, others, hpart, ?_, hsealed⟩, h.taken, h.read⟩
    rw [harriving, ← List.append_assoc] at hinput
    exact hinput
  feed := by
    rintro s t b rest h harriving
    obtain ⟨data, hsealed, hplain⟩ := h.holds
    refine ⟨h.phase, h.oneRecord, h.running, ⟨data, ?_, hplain⟩, h.read⟩
    rw [harriving, ← List.append_assoc] at hsealed
    exact hsealed
  handshake h := handshake_admits h
  receive hsize h := receive_admits hsize h
  send hdata h := send_admits hdata h
  read h := h.read.dataOf_eq

theorem greets_make (here : Surroundings) (c : Policy.Context) (offer : Offer)
    {records data : Bytes} (h : Sealed records data) :
    Greets (!c.hasCallback) (make here c offer)
      { arriving := hello ++ finished ++ records, plain := data } where
  oneRecord := (Bool.not_not _).symm
  running := rfl
  plain := rfl
  holds := ⟨hello ++ finished, records, rfl, rfl, h⟩
  taken := rfl
  read := readsAs_nil

end Session

end TlsGate.Tls
