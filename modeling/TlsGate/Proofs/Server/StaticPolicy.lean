import TlsGate.Proofs.Files
import TlsGate.Proofs.Policy.Failures
import TlsGate.Proofs.Policy.Pairing
import TlsGate.Proofs.Server.Arrivals
import TlsGate.Proofs.Server.Refusals
import TlsGate.Proofs.Server.Startup
import TlsGate.Tls.Session

/-!
A server with one policy for all its connections. The policy was built once, so its mode and its
pool stay as they were then; the files of its certificate and its key are read for each connection.
Two runs with the same connections and the same contents of those two files come to the same,
whatever else happens to the files and to the settings.
-/

set_option autoImplicit false
set_option relaxedAutoImplicit false

namespace TlsGate

namespace Policy

open Config Pki Tls

/-! ## Contexts apart from the system -/

def Context.TrustsSystem (c : Context) : Prop := c.roots = .system

namespace SecurityPolicy

/-- The mode of a policy does not verify, or the policy has a pool. -/
def IsSelfContained (p : SecurityPolicy) : Prop :=
  (p.clientAuth ≠ .verifyIfGiven ∧ p.clientAuth ≠ .requireAndVerify) ∨ p.pool?.isSome = true

variable {at' : Moments} {protocols? : Option (List String)} {p : SecurityPolicy}

private theorem verifyingRoots_ne_system (h : p.IsSelfContained) {verify : VerifyMode}
    (hmode : p.clientAuth.verifyMode? = some verify) : p.verifyingRoots ≠ .ok .system := by
  unfold verifyingRoots
  cases hpool : p.pool? with
  | some pool =>
    dsimp only
    split
    · nofun
    · split <;> nofun
  | none =>
    obtain ⟨hgiven, hrequired⟩ := h.resolve_right (by simp [hpool])
    cases hauth : p.clientAuth <;> simp_all [ClientAuth.verifyMode?]

private theorem callbackRoots_ne_system (h : p.IsSelfContained) (names : List Bytes) :
    p.callbackRoots ≠ .ok (.system, names) := by
  unfold callbackRoots
  cases hpool : p.pool? with
  | some pool =>
    dsimp only
    split
    · cases p.clientAuth.acceptsUntrusted <;> simp
    · nofun
  | none =>
    obtain ⟨hgiven, hrequired⟩ := h.resolve_right (by simp [hpool])
    simp [hgiven, hrequired]

private theorem not_trustsSystem [KeyLibrary] (h : p.IsSelfContained) {context : Context}
    (hcontext : p.context at' protocols? = .ok context) : ¬ context.TrustsSystem := by
  intro hsystem
  obtain ⟨c, rfl, hc⟩ | ⟨c, rfl, hc⟩ := makes_iff.mp (.suitable hcontext)
  · obtain ⟨-, -, hroots, -⟩ := callbackContext_eq_ok_iff.mp hc
    rw [show c.roots = .system from hsystem] at hroots
    exact callbackRoots_ne_system h _ hroots
  · obtain ⟨hmode, hroots, -⟩ := verifyingContext_eq_ok_iff.mp hc
    rw [show c.roots = .system from hsystem] at hroots
    exact verifyingRoots_ne_system h hmode hroots

end SecurityPolicy

/-! ## The own files -/

namespace SecurityPolicy

variable {protocols? : Option (List String)} {p : SecurityPolicy}

/-- The files that a policy has its own certificate and its key from. -/
def ownFiles (p : SecurityPolicy) : List Str :=
  match p.provider? with
  | some (.files certPath keyPath) => [certPath, keyPath]
  | _ => []

private theorem context_of_ownFiles [KeyLibrary] (hbuilt : p.IsBuilt) {files files' : FileSystem}
    (hread : ∀ path ∈ p.ownFiles, files'.read path = files.read path) :
    p.context (.at files') protocols? = p.context (.at files) protocols? := by
  cases hprovider : p.provider? with
  | none =>
    -- any files will do, and an empty path reads the same everywhere
    have hnone (provider : Provider) (hsome : p.provider? = some provider) :
        provider = .files "" "" := by
      rw [hprovider] at hsome
      cases hsome
    exact context_congr hnone (Moments.readsAs_at rfl rfl)
  | some provider =>
    obtain ⟨certPath, keyPath, rfl⟩ := hbuilt.files provider hprovider
    simp only [ownFiles, hprovider, List.forall_mem_cons] at hread
    refine context_congr (fun other hother => ?_) (Moments.readsAs_at hread.1 hread.2.1)
    exact (Option.some.inj (hprovider.symm.trans hother)).symm

end SecurityPolicy

/-! ## What is shown -/

/-- A context shows a pair that two files hold: taken from the armoured blocks by an engine with a
callback, and read line by line by a verifying engine. -/
inductive Context.ShowsFiles [KeyLibrary] (certFile keyFile : Bytes) : Context → Prop
  | callback {c : CallbackContext} {i : Identity} (shown : c.identity? = some i)
      (chain : Certificate.AreThoseOf certFile (i.leaf :: i.others))
      (key : KeyLibrary.privateKey keyFile = .ok i.key) (paired : i.IsPaired) :
      ShowsFiles certFile keyFile (.callback c)
  | verifying {c : VerifyingContext} {i : Identity} (shown : c.identity? = some i)
      (chain : PemLines.chain? certFile = some (i.leaf, i.others))
      (key : KeyLibrary.engineKey? keyFile = some i.key) (paired : i.IsPaired) :
      ShowsFiles certFile keyFile (.verifying c)

private theorem SecurityPolicy.context_showsFiles [KeyLibrary] {p : SecurityPolicy}
    {files : FileSystem}
    {protocols? : Option (List String)} {certPath keyPath : Str} {context : Context}
    (hprovider : p.provider? = some (.files certPath keyPath))
    (h : p.context (.at files) protocols? = .ok context) :
    ∃ certFile keyFile, files.read certPath = .ok certFile ∧ files.read keyPath = .ok keyFile ∧
      context.ShowsFiles certFile keyFile := by
  obtain ⟨c, rfl, hc⟩ | ⟨c, rfl, hc⟩ := SecurityPolicy.makes_iff.mp (.suitable h)
  · obtain ⟨credential, hload, hidentity⟩ := callbackContext_identity hprovider hc
    obtain ⟨-, -, -, certFile, keyFile, hcert, hkey, hof⟩ := Credential.load_eq_ok_iff.mp hload
    exact ⟨certFile, keyFile, hcert, hkey, .callback hidentity hof.chain hof.key hof.paired⟩
  · obtain ⟨-, i, -, ⟨⟨certFile, hcert, hchain⟩, ⟨keyFile, hkey, hfound⟩, hpaired⟩, hidentity⟩ :=
      verifyingContext_identity hprovider hc
    exact ⟨certFile, keyFile, hcert, hkey, .verifying hidentity hchain hfound hpaired⟩

end Policy

/-! ## Engines apart from the system -/

namespace Tls

variable {ε : Type}

/-- Two stacks are alike but for contexts that trust the certificates of the system. -/
structure Stack.AgreesWith (stack stack' : Stack ε) : Prop where
  engine : stack'.engine = stack.engine
  facts : stack'.facts = stack.facts
  start : ∀ c offer, ¬ c.TrustsSystem → stack'.start c offer = stack.start c offer

theorem Stack.AgreesWith.refl (stack : Stack ε) : stack.AgreesWith stack :=
  ⟨rfl, rfl, fun _ _ _ => rfl⟩

/-- What the system trusts makes no difference otherwise to engines with the same verdicts. -/
theorem Session.stack_agreesWith {here here' : Surroundings}
    (h : here'.verdicts = here.verdicts) :
    (Session.stack here).AgreesWith (Session.stack here') where
  engine := rfl
  facts := rfl
  start c offer hsystem := by
    have htrusted : trusted here' c.roots = trusted here c.roots := by
      cases hroots : c.roots with
      | system => exact absurd hroots hsystem
      | nothing => rfl
      | pool certificates => rfl
    have hadmits : c.admits here' offer.chain = c.admits here offer.chain := by
      cases offer.chain with
      | nil => rfl
      | cons own offered => simp only [Policy.Context.admits, htrusted, h]
    simp only [Session.stack, Session.make, hadmits]

private theorem Stack.AgreesWith.wrap_eq {stack stack' : Stack ε} (h : stack.AgreesWith stack')
    {c : Policy.Context} (hsystem : ¬ c.TrustsSystem) (offer : Offer) (transport : Script) :
    stack'.wrap c offer transport = stack.wrap c offer transport := by
  simp only [Stack.wrap, h.engine, h.start c offer hsystem]

end Tls

/-! ## The connections of a run -/

namespace Server

open Config FileSystem Pki Policy SecurityPolicy Tls

variable {ε τ : Type}

def History.visits (h : History ε τ) : List (Visit ε τ) := h.reports.filterMap (·.visit?)

private theorem start_secured [Yaml.Room] (network : Network) (fs : FileSystem) {s : Settings}
    {source : PolicySource}
    (hsource : s.effectiveSource? = some source) :
    (start network fs s .secured).result = if network.refuses then .error .address
      else .ok ⟨.secured source, network.bound?.getD s.address⟩ := by
  have hgate : s.securedGate = (s.certificateWarning, .ok (.secured source)) := by
    rw [Settings.securedGate, hsource]
  simp only [start, Settings.prepare, hgate]
  cases network.refuses <;> rfl

private theorem History.visits_secured [Yaml.Room] [KeyLibrary] (stack : Stack ε)
    (handler : Handler ε τ) (network : Network)
    {s : Settings} {source : PolicySource} (hsource : s.effectiveSource? = some source)
    (fs : FileSystem) (state : τ) (steps : List Step) :
    (History.of stack handler network fs s .secured state steps).visits =
      if network.refuses then []
      else receiveAll stack handler s.protocols? (.secured source) (arrivals fs steps) 0 state := by
  have hstart := start_secured network fs hsource
  cases hrefuses : network.refuses with
  | true =>
    rw [hrefuses, if_pos rfl] at hstart
    rw [History.of_error hstart, if_pos rfl]
    rfl
  | false =>
    rw [hrefuses, if_neg Bool.false_ne_true] at hstart
    rw [if_neg Bool.false_ne_true, History.of]
    dsimp only
    rw [hstart]
    exact run_visits ..

/-! ## Changes elsewhere -/

/-- The same connections arrive, and some paths read the same whenever one does. -/
def SameArrivals (paths : List Str) (l l' : List (FileSystem × Arrival)) : Prop :=
  List.Forall₂ (fun x x' => x'.2 = x.2 ∧ ∀ path ∈ paths, x'.1.read path = x.1.read path) l l'

inductive Step.IsElsewhere (paths : List Str) (fs : FileSystem) : Step → Prop
  | edit {e : FileEdit} (apart : ∀ path ∈ paths, e.IsApart fs path) : IsElsewhere paths fs (.edit e)
  | setPolicy (options : TlsConfig) : IsElsewhere paths fs (.setPolicy options)

/-- The steps of two runs are the same but for some of either that take place elsewhere. -/
inductive DifferElsewhere (paths : List Str) :
    FileSystem → List Step → FileSystem → List Step → Prop
  | done (fs fs' : FileSystem) : DifferElsewhere paths fs [] fs' []
  | both {fs fs' : FileSystem} {rest rest' : List Step} (s : Step)
      (later : DifferElsewhere paths (filesAfter fs [s]) rest (filesAfter fs' [s]) rest') :
      DifferElsewhere paths fs (s :: rest) fs' (s :: rest')
  | first {fs fs' : FileSystem} {s : Step} {rest steps' : List Step}
      (elsewhere : s.IsElsewhere paths fs)
      (later : DifferElsewhere paths (filesAfter fs [s]) rest fs' steps') :
      DifferElsewhere paths fs (s :: rest) fs' steps'
  | second {fs fs' : FileSystem} {s : Step} {steps rest' : List Step}
      (elsewhere : s.IsElsewhere paths fs')
      (later : DifferElsewhere paths fs steps (filesAfter fs' [s]) rest') :
      DifferElsewhere paths fs steps fs' (s :: rest')

section Elsewhere

variable {paths : List Str} {fs fs' : FileSystem} {steps steps' : List Step} {s : Step}

private theorem arrivals_of_isElsewhere (h : s.IsElsewhere paths fs) (rest : List Step) :
    arrivals fs (s :: rest) = arrivals (filesAfter fs [s]) rest := by
  cases h with
  | edit apart => rfl
  | setPolicy options => rfl

private theorem agreeOn_of_isElsewhere (h : s.IsElsewhere paths fs) :
    ∀ path ∈ paths, fs.AgreeOn (filesAfter fs [s]) path := by
  intro path hpath
  cases h with
  | edit apart => exact FileEdit.agreeOn_of_isApart (apart path hpath)
  | setPolicy options => exact .refl fs path

private theorem agreeOn_filesAfter {path : Str} (h : fs.AgreeOn fs' path) (s : Step) :
    (filesAfter fs [s]).AgreeOn (filesAfter fs' [s]) path := by
  cases s with
  | arrival a => exact h
  | edit e => exact FileEdit.agreeOn_apply h e
  | setPolicy options => exact h

private theorem sameArrivals_of_differElsewhere (h : DifferElsewhere paths fs steps fs' steps')
    (hon : ∀ path ∈ paths, fs.AgreeOn fs' path) :
    SameArrivals paths (arrivals fs steps) (arrivals fs' steps') := by
  induction h with
  | done fs fs' => exact .nil
  | both s _ ih =>
    have hrest := ih fun path hpath => agreeOn_filesAfter (hon path hpath) s
    cases s with
    | arrival a => exact .cons ⟨rfl, fun path hpath => (hon path hpath).read⟩ hrest
    | edit e => exact hrest
    | setPolicy options => exact hrest
  | first elsewhere _ ih =>
    rw [arrivals_of_isElsewhere elsewhere]
    exact ih fun path hpath =>
      (agreeOn_of_isElsewhere elsewhere path hpath).symm.trans (hon path hpath)
  | second elsewhere _ ih =>
    rw [arrivals_of_isElsewhere elsewhere]
    exact ih fun path hpath =>
      (hon path hpath).trans (agreeOn_of_isElsewhere elsewhere path hpath)

end Elsewhere

/-! ## Connections under a static policy -/

/-- How a connection is treated on files under a policy: a context that is made shows the pair of
the files; the handler is given the connection exactly if a context is made and the handshake
completes; and it is refused exactly if the files or the handshake fail, or whatever the files are.
-/
structure IsTreated [KeyLibrary] (stack : Stack ε) (p : SecurityPolicy)
    (protocols? : Option (List String)) (files : FileSystem) (a : Arrival) (visit : Visit ε τ) :
    Prop where
  shows : ∀ context, p.context (.at files) protocols? = .ok context →
    ∀ certPath keyPath, p.provider? = some (.files certPath keyPath) →
      ∃ certFile keyFile, files.read certPath = .ok certFile ∧ files.read keyPath = .ok keyFile ∧
        context.ShowsFiles certFile keyFile
  given : ∀ channel, visit.given? = some channel ↔
    ∃ context, p.context (.at files) protocols? = .ok context ∧
      stack.wrap context a.offer a.transport = (none, channel)
  refused : visit.given? = none ↔
    (¬ p.IsPoolRead ∨ ¬ p.CanOffer protocols?) ∨ p.FilesFail (.at files) ∨
      ∃ context fault channel, p.context (.at files) protocols? = .ok context ∧
        stack.wrap context a.offer a.transport = (some fault, channel)

section Connections

variable [Yaml.Room] [KeyLibrary] {stack : Stack ε} {handler : Handler ε τ}
variable {protocols? : Option (List String)} {p : SecurityPolicy}

private theorem isTreated_receive (hbuilt : p.IsBuilt) (files : FileSystem) (passed : Nat)
    (state : τ)
    (a : Arrival) : IsTreated stack p protocols? files a
      (receive stack handler protocols? (.secured (.fixed p)) files passed state a) := by
  have hgiven (channel : Channel ε) :
      (receive stack handler protocols? (.secured (.fixed p)) files passed state a).given? =
        some channel ↔ ∃ context, p.context (.at files) protocols? = .ok context ∧
          stack.wrap context a.offer a.transport = (none, channel) := by
    rw [receive_given_iff, pass_eq_ok_iff_of_source]
    simp [PolicySource.policy]
  refine ⟨fun context hcontext certPath keyPath hprovider =>
    SecurityPolicy.context_showsFiles hprovider hcontext, hgiven, ?_⟩
  have hmade : (∃ c, p.context (.at files) protocols? = .ok c) ↔
      p.IsPoolRead ∧ p.CanOffer protocols? ∧ ¬ p.FilesFail (.at files) :=
    SecurityPolicy.exists_context_iff hbuilt
  simp only [Option.eq_none_iff_forall_ne_some, ne_eq, hgiven]
  cases hcontext : p.context (.at files) protocols? with
  | error e =>
    have hfails : ¬ (p.IsPoolRead ∧ p.CanOffer protocols? ∧ ¬ p.FilesFail (.at files)) := by
      rw [← hmade, hcontext]
      rintro ⟨c, hc⟩
      cases hc
    have hrefused : (¬ p.IsPoolRead ∨ ¬ p.CanOffer protocols?) ∨ p.FilesFail (.at files) := by
      tauto
    exact ⟨fun _ => hrefused.imp_right .inl, fun _ _ => by rintro ⟨_, h, -⟩; cases h⟩
  | ok context =>
    obtain ⟨hpool, hoffer, hfiles⟩ := hmade.mp ⟨context, hcontext⟩
    have hwrapped : (∀ channel, stack.wrap context a.offer a.transport ≠ (none, channel)) ↔
        ∃ fault channel, stack.wrap context a.offer a.transport = (some fault, channel) := by
      obtain ⟨fault?, channel⟩ := stack.wrap context a.offer a.transport
      cases fault? <;> simp
    simpa [hpool, hoffer, hfiles] using hwrapped

theorem receive_congr {stack' : Stack ε} (hbuilt : p.IsBuilt) (hcontained : p.IsSelfContained)
    (hstack : stack.AgreesWith stack') {files files' : FileSystem}
    (hread : ∀ path ∈ p.ownFiles, files'.read path = files.read path) (passed : Nat) (state : τ)
    (a : Arrival) :
    receive stack' handler protocols? (.secured (.fixed p)) files' passed state a =
      receive stack handler protocols? (.secured (.fixed p)) files passed state a := by
  have hfacts (channel : Channel ε) : channel.facts? stack' = channel.facts? stack := by
    simp only [Channel.facts?, hstack.facts]
  have hpass : (Gate.secured (.fixed p)).pass stack' protocols? files' a =
      (Gate.secured (.fixed p)).pass stack protocols? files a := by
    simp only [Gate.pass, PolicySource.policy, SecurityPolicy.context_of_ownFiles hbuilt hread]
    cases hcontext : p.context (.at files) protocols? with
    | error e => rfl
    | ok context =>
      simp only [hstack.wrap_eq (SecurityPolicy.not_trustsSystem hcontained hcontext)]
  simp only [receive, hpass, handle, hfacts]

private theorem receiveAll_of_sameArrivals {stack' : Stack ε} (hbuilt : p.IsBuilt)
    (hcontained : p.IsSelfContained) (hstack : stack.AgreesWith stack')
    {l l' : List (FileSystem × Arrival)} (h : SameArrivals p.ownFiles l l') (passed : Nat)
    (state : τ) :
    receiveAll stack' handler protocols? (.secured (.fixed p)) l' passed state =
      receiveAll stack handler protocols? (.secured (.fixed p)) l passed state := by
  refine receiveAll_congr handler (List.Forall₂.imp ?_ h) passed state
  rintro ⟨files, a⟩ ⟨files', _⟩ ⟨rfl, hread⟩ passed state
  exact receive_congr hbuilt hcontained hstack hread passed state _

end Connections

/-- What a server does that has a policy built once. Without a source its connections come to the
same in two runs if the same ones arrive and the own files of the policy read the same when they do,
whatever the system trusts; and they read the same if the runs differ in changes elsewhere alone.
Each connection is shown the pair that the own files hold at that moment, and it is refused exactly
if these files or its handshake fail, or if the engine does not take the pool of the policy or the
protocols of the server, when every connection is. With a source the policy makes no difference. -/
theorem static_policy_scope [Yaml.Room] [KeyLibrary] (built : FileSystem) (options : TlsConfig)
    (p : SecurityPolicy)
    (hbuild : (SecurityPolicy.build built options).2 = .ok p) (s : Settings)
    (hpolicy : s.policy? = some p) (stack : Stack ε) (handler : Handler ε τ) (network : Network)
    (state : τ) :
    (s.source? = none →
      (p.IsSelfContained → ∀ stack', stack.AgreesWith stack' → ∀ fs fs' steps steps',
        SameArrivals p.ownFiles (arrivals fs steps) (arrivals fs' steps') →
          (History.of stack' handler network fs' s .secured state steps').visits =
            (History.of stack handler network fs s .secured state steps).visits) ∧
      ∀ (fs : FileSystem) (steps : List Step) (i : Nat) (visit : Visit ε τ),
        (History.of stack handler network fs s .secured state steps).visits[i]? = some visit →
          ∃ files a, (arrivals fs steps)[i]? = some (files, a) ∧
            IsTreated stack p s.protocols? files a visit) ∧
      (∀ fs steps steps', DifferElsewhere p.ownFiles fs steps fs steps' →
        SameArrivals p.ownFiles (arrivals fs steps) (arrivals fs steps')) ∧
      (s.source?.isSome → ∀ (policy? : Option SecurityPolicy) (fs fs' : FileSystem)
        (steps steps' : List Step), arrivals fs' steps' = arrivals fs steps →
          (History.of stack handler network fs' { s with policy? := policy? } .secured state
              steps').visits =
            (History.of stack handler network fs s .secured state steps).visits) := by
  have hbuilt := SecurityPolicy.isBuilt_of_build hbuild
  refine ⟨fun hsource => ?_, fun fs steps steps' hdiffer => ?_, fun hsource => ?_⟩
  · have hfixed : s.effectiveSource? = some (.fixed p) := by
      rw [Settings.effectiveSource?, hsource, hpolicy]
      rfl
    refine ⟨fun hcontained stack' hstack fs fs' steps steps' hsame => ?_, ?_⟩
    · rw [History.visits_secured _ _ _ hfixed, History.visits_secured _ _ _ hfixed]
      rw [receiveAll_of_sameArrivals hbuilt hcontained hstack hsame]
    · intro fs steps i visit hvisit
      rw [History.visits_secured _ _ _ hfixed] at hvisit
      split at hvisit
      · cases hvisit
      · obtain ⟨files, a, passed, state, ha, rfl⟩ := exists_of_receiveAll _ _ _ _ hvisit
        exact ⟨files, a, ha, isTreated_receive hbuilt files passed state a⟩
  · exact sameArrivals_of_differElsewhere hdiffer fun path _ => .refl fs path
  · obtain ⟨source, hsource⟩ := Option.isSome_iff_exists.mp hsource
    intro policy? fs fs' steps steps' hsame
    have hasked (policy? : Option SecurityPolicy) :
        Settings.effectiveSource? { s with policy? := policy? } = some source := by
      simp only [Settings.effectiveSource?, hsource, Option.some_or]
    have hown : s.effectiveSource? = some source := hasked s.policy?
    rw [History.visits_secured _ _ _ (hasked policy?), History.visits_secured _ _ _ hown, hsame]

local instance staticRoom : Yaml.Room := .ofCalls 960

local instance staticKeys : KeyLibrary := .standard

def quietSteps : List Step :=
  [.arrival { transport := {} }, .edit (.remove (Bytes.ofString "server.crt")),
    .arrival { transport := {} }]

def busySteps : List Step :=
  [.edit (.write (Bytes.ofString "ca.pem") (.file [])), .arrival { transport := {} },
    .setPolicy ownOptions, .edit (.remove (Bytes.ofString "server.crt")),
    .edit (.remove (Bytes.ofString "tls.yaml")), .arrival { transport := {} }]

def ownDirectory : FileSystem := Sample.files Sample.once.certFile Sample.once.keyFile

private theorem differElsewhere_busySteps :
    DifferElsewhere ownPolicy.ownFiles ownDirectory quietSteps ownDirectory busySteps := by
  refine .second (.edit (by decide +kernel)) (.both _ (.second (.setPolicy _) (.both _
    (.second (.edit ?_) (.both _ (.done _ _))))))
  decide +kernel

private theorem not_filesFail_once {fs : FileSystem} {p : SecurityPolicy}
    (hcert : fs.read "server.crt" = .ok Sample.once.certFile)
    (hkey : fs.read "server.key" = .ok Sample.once.keyFile)
    (hprovider : p.provider? = some (.files "server.crt" "server.key"))
    (hmode : p.clientAuth = .none) : ¬ p.FilesFail (.at fs) := by
  have hload := Sample.load_once fs fs hcert hkey
  rintro ⟨_, _, hsome, hfails⟩
  cases hprovider.symm.trans hsome
  obtain ⟨e, he⟩ | ⟨c, e, hc, he⟩ := hfails
  · cases hload.symm.trans he
  · cases hload.symm.trans hc
    have htakes : p.takes (.at fs) = fun c => Identity.reread (.at fs) c.certPath c.keyPath := by
      funext c
      simp [takes, hmode, ClientAuth.acceptsUntrusted]
    rw [htakes] at he
    cases (reread_once hcert hkey).symm.trans he

private theorem context_once : ownPolicy.context (.at ownDirectory) none =
    .ok (.verifying ⟨.never, .nothing, some ⟨Sample.onceLeaf, [], Sample.once.key⟩, none⟩) := by
  have hcert : ownDirectory.read "server.crt" = .ok Sample.once.certFile :=
    Sample.files_read_cert _ _
  have hkey : ownDirectory.read "server.key" = .ok Sample.once.keyFile := Sample.files_read_key _ _
  rw [SecurityPolicy.context, if_neg (by decide), verifyingContext_once hcert hkey rfl]
  rfl

private theorem wrap_readyStack (c : VerifyingContext) (offer : Offer) :
    (readyStack.wrap (.verifying c) offer {}).1 = none := by
  simp only [Stack.wrap, Relay.handshake]
  rw [Relay.call]
  rfl

/-- The same connections come to the same among other changes, the first of them is accepted and
shown what the files hold, and the policy makes no difference to a source. -/
theorem static_policy_scope_busy :
    let s : Settings := { policy? := some ownPolicy }
    let visits (s : Settings) (steps : List Step) : List (Visit Unit Unit) :=
      (History.of readyStack idle {} ownDirectory s .secured () steps).visits
    ((build {} ownOptions).2 = .ok ownPolicy ∧ s.policy? = some ownPolicy ∧ s.source? = none ∧
        ownPolicy.IsSelfContained ∧
        DifferElsewhere ownPolicy.ownFiles ownDirectory quietSteps ownDirectory busySteps) ∧
      visits s busySteps = visits s quietSteps ∧
      (∃ visit context, (visits s quietSteps)[0]? = some visit ∧ visit.given?.isSome ∧
        ownPolicy.context (.at ownDirectory) none = .ok context ∧
        context.ShowsFiles Sample.once.certFile Sample.once.keyFile) ∧
      visits { s with source? := some (.fixed {}), policy? := none } quietSteps =
        visits { s with source? := some (.fixed {}) } quietSteps := by
  intro s visits
  have hbuild : (build {} ownOptions).2 = .ok ownPolicy := by decide
  have hcontained : ownPolicy.IsSelfContained := .inl (by decide)
  obtain ⟨hstatic, helsewhere, -⟩ :=
    static_policy_scope {} ownOptions ownPolicy hbuild s rfl readyStack idle {} ()
  obtain ⟨-, -, hsource⟩ := static_policy_scope {} ownOptions ownPolicy hbuild
    { s with source? := some (.fixed {}) } rfl readyStack idle {} ()
  obtain ⟨hsame, htreated⟩ := hstatic rfl
  refine ⟨⟨hbuild, rfl, rfl, hcontained, differElsewhere_busySteps⟩, ?_, ?_, ?_⟩
  · exact hsame hcontained _ (.refl _) _ _ _ _ (helsewhere _ _ _ differElsewhere_busySteps)
  · have hfirst : (visits s quietSteps)[0]? = some (receive readyStack idle none
        (.secured (.fixed ownPolicy)) ownDirectory 0 () { transport := {} }) := by
      have hfixed : s.effectiveSource? = some (.fixed ownPolicy) := rfl
      dsimp only [visits]
      rw [History.visits_secured _ _ _ hfixed, if_neg (by decide)]
      exact receiveAll_cons_zero ..
    obtain ⟨files, a, ha, h⟩ := htreated _ _ _ _ hfirst
    cases ha
    obtain ⟨certFile, keyFile, hcert, hkey, hshows⟩ := h.shows _ context_once _ _ rfl
    cases hcert
    cases hkey
    refine ⟨_, _, hfirst, ?_, context_once, hshows⟩
    rw [(h.given _).mpr ⟨_, context_once, Prod.ext (wrap_readyStack _ _) rfl⟩]
    rfl
  · exact hsource rfl none _ _ _ _ rfl

def oddDer : Bytes :=
  Sample.once.certificateDer 2
    [0x31, 0x0A, 0x30, 0x08, 0x06, 0x03, 0x55, 0x04, 0x03, 0x00, 0x01, 0x61]

def oddCertificate : Certificate := (Certificate.read? oddDer).get (by decide +kernel)

def oddDirectory : FileSystem :=
  ownDirectory.write (Bytes.ofString "ca.pem") (.file (TrustPool.toPem ⟨[oddCertificate]⟩))

private theorem read_oddDirectory :
    oddDirectory.read "server.crt" = .ok Sample.once.certFile ∧
      oddDirectory.read "server.key" = .ok Sample.once.keyFile := by
  have hapart : ∀ path ∈ [("server.crt" : Str), ("server.key" : Str)],
      (FileEdit.write (Bytes.ofString "ca.pem")
        (.file (TrustPool.toPem ⟨[oddCertificate]⟩))).IsApart ownDirectory path := by
    decide +kernel
  have hsame (path : Str) (hpath : path ∈ [("server.crt" : Str), ("server.key" : Str)]) :
      oddDirectory.read path = ownDirectory.read path :=
    (FileEdit.agreeOn_of_isApart (hapart path hpath)).read
  exact ⟨(hsame _ (by simp)).trans (Sample.files_read_cert ..),
    (hsame _ (by simp)).trans (Sample.files_read_key ..)⟩

def oddPolicy : SecurityPolicy := { ownPolicy with pool? := some ⟨[oddCertificate]⟩ }

private theorem build_oddDirectory :
    (build oddDirectory { ownOptions with clientCas := "ca.pem" }).2 = .ok oddPolicy := by
  have hgenuine : oddCertificate.IsGenuine := by
    unfold Certificate.IsGenuine
    decide +kernel
  have hload : TrustPool.load oddDirectory "ca.pem" = ([], .ok ⟨[oddCertificate]⟩) :=
    TrustPool.load_toPem (by decide +kernel) ⟨by simp, by simpa using hgenuine⟩
  have hpool : (poolOf oddDirectory { ownOptions with clientCas := "ca.pem" }).2 =
      .ok (some ⟨[oddCertificate]⟩) := by
    rw [poolOf_result (by decide), hload]
    rfl
  rw [build_result _ _ hpool]
  rfl

private theorem visits_single_refused {p : SecurityPolicy} (hbuilt : p.IsBuilt) (files : FileSystem)
    (protocols? : Option (List String)) (h : ¬ p.IsPoolRead ∨ ¬ p.CanOffer protocols?) :
    (History.of readyStack idle {} files { policy? := some p, protocols? := protocols? } .secured ()
      [.arrival { transport := {} }]).visits.map (·.given?.isSome) = [false] := by
  have hfixed : Settings.effectiveSource? { policy? := some p, protocols? := protocols? } =
      some (.fixed p) := rfl
  have htreated : IsTreated readyStack p protocols? files { transport := {} }
      (receive readyStack idle protocols? (.secured (.fixed p)) files 0 () { transport := {} }) :=
    isTreated_receive hbuilt files 0 () { transport := {} }
  have hgiven := htreated.refused.mpr (.inl h)
  rw [History.visits_secured _ _ _ hfixed, if_neg (by decide)]
  simp only [arrivals, receiveAll]
  split <;> simp [hgiven]

/-- A connection is refused although neither the own files nor a handshake fail: under a pool that
the engine does not take, and for a protocol without a name. -/
theorem refused_without_failure :
    let visits (s : Settings) : List (Visit Unit Unit) :=
      (History.of readyStack idle {} oddDirectory s .secured ()
        [.arrival { transport := {} }]).visits
    ((build oddDirectory { ownOptions with clientCas := "ca.pem" }).2 = .ok oddPolicy ∧
        oddPolicy.IsSelfContained ∧ ¬ oddPolicy.FilesFail (.at oddDirectory) ∧
        (visits { policy? := some oddPolicy }).map (·.given?.isSome) = [false]) ∧
      ((build oddDirectory ownOptions).2 = .ok ownPolicy ∧ ownPolicy.IsSelfContained ∧
        ¬ ownPolicy.FilesFail (.at oddDirectory) ∧
        (visits { policy? := some ownPolicy, protocols? := some [""] }).map (·.given?.isSome) =
          [false]) ∧
      ∀ c offer, (readyStack.wrap (.verifying c) offer {}).1 = none := by
  intro visits
  have hown : (build oddDirectory ownOptions).2 = .ok ownPolicy := by decide +kernel
  have hunread : ¬ oddPolicy.IsPoolRead := fun hread =>
    absurd (hread _ rfl oddCertificate (List.mem_singleton.mpr rfl)) (by decide +kernel)
  have hunnamed : ¬ ownPolicy.CanOffer (some [""]) := fun hoffer =>
    (hoffer _ rfl "" (List.mem_singleton.mpr rfl)).nonempty rfl
  obtain ⟨hcert, hkey⟩ := read_oddDirectory
  refine ⟨⟨build_oddDirectory, .inl (by decide), not_filesFail_once hcert hkey rfl rfl, ?_⟩,
    ⟨hown, .inl (by decide), not_filesFail_once hcert hkey rfl rfl, ?_⟩, wrap_readyStack⟩
  · exact visits_single_refused (isBuilt_of_build build_oddDirectory) _ _ (.inl hunread)
  · exact visits_single_refused (isBuilt_of_build hown) _ _ (.inr hunnamed)

end Server

end TlsGate
