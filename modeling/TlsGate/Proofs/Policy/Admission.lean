import TlsGate.Proofs.Policy.Contexts

/-!
What contexts demand of the certificates of a client. A policy states a demand in terms of its mode
and its pool alone; every context that is made from it, of either kind of engine, admits exactly the
clients that meet the demand.
-/

set_option autoImplicit false
set_option relaxedAutoImplicit false

namespace TlsGate

def Tls.Surroundings.Verifies (here : Surroundings) (roots : List Pki.Certificate)
    (own : Pki.Certificate) (offered : List Pki.Certificate) : Prop :=
  ∀ verdict ∈ here.verdicts roots own offered, verdict = true

namespace Policy

open Config Pki Tls

/-- The certificates that clients of a policy are checked against: those of the pool, or those of
the system if there is no pool. -/
def SecurityPolicy.authorities (here : Surroundings) (p : SecurityPolicy) : List Certificate :=
  match p.pool? with
  | some pool => pool.certificates
  | none => here.systemRoots

/-- What a policy demands of the certificates of a client. -/
structure SecurityPolicy.IsSatisfiedBy (here : Surroundings) (p : SecurityPolicy)
    (chain : List Certificate) : Prop where
  presented : p.clientAuth = .requireAny ∨ p.clientAuth = .requireAndVerify → chain ≠ []
  verified : p.clientAuth = .verifyIfGiven ∨ p.clientAuth = .requireAndVerify →
    ∀ own offered, chain = own :: offered → here.Verifies (p.authorities here) own offered

/-- The contexts that are made from a policy: the one of the kind that suits it, and those of both
kinds where there are such. -/
inductive SecurityPolicy.Makes [KeyLibrary] (at' : Moments) (protocols? : Option (List String))
    (p : SecurityPolicy) : Context → Prop
  | suitable {c : Context} : p.context at' protocols? = .ok c → Makes at' protocols? p c
  | callback {c : CallbackContext} :
      p.callbackContext at' protocols? = .ok c → Makes at' protocols? p (.callback c)
  | verifying {c : VerifyingContext} :
      p.verifyingContext at' protocols? = .ok c → Makes at' protocols? p (.verifying c)

section Demands

variable {here : Surroundings} {p : SecurityPolicy}

theorem isSatisfiedBy_nil_iff :
    p.IsSatisfiedBy here [] ↔ p.clientAuth.requiresCertificate = false := by
  constructor
  · intro hs
    have hp := hs.presented
    cases hmode : p.clientAuth <;> simp [hmode, ClientAuth.requiresCertificate] at hp ⊢
  · intro hmode
    refine ⟨fun hm => ?_, fun _ _ _ he => by simp at he⟩
    rcases hm with hm | hm <;> simp [hm, ClientAuth.requiresCertificate] at hmode

theorem isSatisfiedBy_cons_iff {own : Certificate} {offered : List Certificate} :
    p.IsSatisfiedBy here (own :: offered) ↔
      (p.clientAuth = .verifyIfGiven ∨ p.clientAuth = .requireAndVerify →
        here.Verifies (p.authorities here) own offered) := by
  constructor
  · intro hs hmode
    exact hs.verified hmode own offered rfl
  · intro ht
    refine ⟨fun _ => by simp, fun hmode own' offered' he => ?_⟩
    obtain ⟨rfl, rfl⟩ := List.cons.inj he
    exact ht hmode

private theorem trusted_verifyingRoots (here : Surroundings) {roots : Roots}
    (hroots : p.verifyingRoots = .ok roots) (hmode : p.clientAuth ≠ .none) :
    trusted here roots = p.authorities here := by
  unfold SecurityPolicy.verifyingRoots at hroots
  split at hroots
  · rename_i pool hpool
    split at hroots
    · simp at hroots
    · split at hroots
      · simp only [Except.ok.injEq] at hroots
        simp only [SecurityPolicy.authorities, hpool, ← hroots, trusted]
      · simp at hroots
  · rename_i hpool
    simp only [hmode, ↓reduceIte, Except.ok.injEq] at hroots
    simp only [SecurityPolicy.authorities, hpool, ← hroots, trusted]

private theorem trusted_callbackRoots (here : Surroundings) {roots : Roots} {names : List Bytes}
    (hroots : p.callbackRoots = .ok (roots, names))
    (hmode : p.clientAuth = .verifyIfGiven ∨ p.clientAuth = .requireAndVerify) :
    trusted here roots = p.authorities here := by
  have huntrusted : p.clientAuth.acceptsUntrusted = false := by
    rcases hmode with hmode | hmode <;> rw [hmode] <;> rfl
  unfold SecurityPolicy.callbackRoots at hroots
  split at hroots
  · rename_i pool hpool
    split at hroots
    · simp only [huntrusted, Bool.false_eq_true, ↓reduceIte, Except.ok.injEq,
        Prod.mk.injEq] at hroots
      simp only [SecurityPolicy.authorities, hpool, ← hroots.1, trusted]
    · simp at hroots
  · rename_i hpool
    simp only [hmode, ↓reduceIte, Except.ok.injEq, Prod.mk.injEq] at hroots
    simp only [SecurityPolicy.authorities, hpool, ← hroots.1, trusted]

end Demands

section Contexts

variable [KeyLibrary] {here : Surroundings} {at' : Moments} {protocols? : Option (List String)}
  {p : SecurityPolicy}

theorem SecurityPolicy.makes_iff {context : Context} : p.Makes at' protocols? context ↔
    (∃ c, context = .callback c ∧ p.callbackContext at' protocols? = .ok c) ∨
      ∃ c, context = .verifying c ∧ p.verifyingContext at' protocols? = .ok c := by
  constructor
  · rintro (h | h | h)
    · unfold SecurityPolicy.context at h
      split at h
      · obtain ⟨c, hc, rfl⟩ := ok_of_map_eq_ok h
        exact .inl ⟨c, rfl, hc⟩
      · obtain ⟨c, hc, rfl⟩ := ok_of_map_eq_ok h
        exact .inr ⟨c, rfl, hc⟩
    · exact .inl ⟨_, rfl, h⟩
    · exact .inr ⟨_, rfl, h⟩
  · rintro (⟨c, rfl, h⟩ | ⟨c, rfl, h⟩)
    · exact .callback h
    · exact .verifying h

private theorem verifyingContext_admits_iff {c : VerifyingContext}
    (h : p.verifyingContext at' protocols? = .ok c) (chain : List Certificate) :
    (Context.verifying c).admits here chain = true ↔ p.IsSatisfiedBy here chain := by
  obtain ⟨hverify, hroots, -⟩ := SecurityPolicy.verifyingContext_eq_ok_iff.mp h
  have htrusted := trusted_verifyingRoots here hroots
  cases c with
  | mk verify roots identity? protocols =>
    simp only at hverify htrusted
    cases chain with
    | nil =>
      rw [isSatisfiedBy_nil_iff]
      cases hmode : p.clientAuth <;> rw [hmode] at hverify <;>
        simp only [ClientAuth.verifyMode?, reduceCtorEq, Option.some.injEq] at hverify <;>
        subst hverify <;>
        simp [Context.admits, Context.asks, Context.demands, ClientAuth.requiresCertificate]
    | cons own offered =>
      rw [isSatisfiedBy_cons_iff]
      cases hmode : p.clientAuth <;> rw [hmode] at hverify <;>
        simp only [ClientAuth.verifyMode?, reduceCtorEq, Option.some.injEq] at hverify <;>
        subst hverify <;>
        simp [Context.admits, Context.asks, Context.accepts, Context.roots, Surroundings.Verifies,
          ← htrusted, hmode]

private theorem callbackContext_admits_iff {c : CallbackContext}
    (h : p.callbackContext at' protocols? = .ok c) (chain : List Certificate) :
    (Context.callback c).admits here chain = true ↔ p.IsSatisfiedBy here chain := by
  obtain ⟨hflags, hany, hroots, -⟩ := SecurityPolicy.callbackContext_eq_ok_iff.mp h
  have htrusted := trusted_callbackRoots here hroots
  cases chain with
  | nil =>
    rw [isSatisfiedBy_nil_iff]
    simp only [Context.admits, Context.asks, Context.demands, hflags]
    cases p.clientAuth <;> decide
  | cons own offered =>
    have haccepts : (Context.callback c).accepts =
        fun verdict => p.clientAuth.acceptsUntrusted || verdict := by
      funext verdict
      rw [Context.accepts, hany]
    rw [isSatisfiedBy_cons_iff]
    simp only [Context.admits, Context.asks, hflags, haccepts, Context.roots]
    cases hmode : p.clientAuth <;>
      simp [ClientAuth.verifyFlags, ClientAuth.requiresCertificate, ClientAuth.acceptsUntrusted,
        Surroundings.Verifies, ← htrusted, hmode]

theorem admits_iff_isSatisfiedBy {c : Context} (h : p.Makes at' protocols? c)
    (chain : List Certificate) : c.admits here chain = true ↔ p.IsSatisfiedBy here chain := by
  obtain ⟨c, rfl, hc⟩ | ⟨c, rfl, hc⟩ := SecurityPolicy.makes_iff.mp h
  · exact callbackContext_admits_iff hc chain
  · exact verifyingContext_admits_iff hc chain

end Contexts

theorem isSatisfiedBy_congr {here : Surroundings} {p q : SecurityPolicy}
    (hmode : q.clientAuth = p.clientAuth)
    (hpool : p.clientAuth.acceptsUntrusted = true ∨ q.pool? = p.pool?)
    (chain : List Certificate) : q.IsSatisfiedBy here chain ↔ p.IsSatisfiedBy here chain := by
  cases chain with
  | nil => rw [isSatisfiedBy_nil_iff, isSatisfiedBy_nil_iff, hmode]
  | cons own offered =>
    rw [isSatisfiedBy_cons_iff, isSatisfiedBy_cons_iff, hmode]
    rcases hpool with hpool | hpool
    · cases hm : p.clientAuth <;> simp [hm, ClientAuth.acceptsUntrusted] at hpool ⊢
    · simp only [SecurityPolicy.authorities, hpool]

end Policy

end TlsGate
