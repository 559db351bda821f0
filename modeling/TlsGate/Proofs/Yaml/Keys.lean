import TlsGate.Proofs.Config.Schema
import TlsGate.Yaml.Document

/-!
The keys of documents. A value is put under a key that is there already, so no mapping of a document
holds a key twice, however it is merged of others and whatever nodes stand for others.
-/

set_option autoImplicit false
set_option relaxedAutoImplicit false

namespace TlsGate.Yaml

/-! ## Entries -/

def KeysApart {α : Type} (entries : List (Scalar × α)) : Prop :=
  (entries.map Prod.fst).Pairwise fun a b => a.same b = false

private theorem putEntry_keys (key : Scalar) (value : Nat) (entries : List (Scalar × Nat)) :
    ∀ k ∈ (Build.putEntry key value entries).map Prod.fst, k = key ∨ k ∈ entries.map Prod.fst := by
  fun_induction Build.putEntry key value entries with
  | case1 => simp
  | case2 k v rest hsame => exact fun other hmem => .inr hmem
  | case3 k v rest hother ih =>
    simp only [List.map_cons, List.forall_mem_cons]
    refine ⟨.inr List.mem_cons_self, fun other hmem => ?_⟩
    exact (ih other hmem).imp_right (List.mem_cons_of_mem k)

theorem KeysApart.putEntry {entries : List (Scalar × Nat)} (h : KeysApart entries) (key : Scalar)
    (value : Nat) : KeysApart (Build.putEntry key value entries) := by
  fun_induction Build.putEntry key value entries with
  | case1 => exact List.pairwise_singleton _ _
  | case2 k v rest hsame => exact h
  | case3 k v rest hother ih =>
    obtain ⟨hfirst, hrest⟩ := List.pairwise_cons.mp h
    refine List.pairwise_cons.mpr ⟨fun other hmem => ?_, ih hrest⟩
    rcases putEntry_keys key value rest other hmem with rfl | hmem
    · simpa using hother
    · exact hfirst other hmem

def Builder.IsApart (b : Builder) : Prop := ∀ entries ∈ b.entries, KeysApart entries

namespace Build

/-! ## What a computation keeps -/

variable {α β : Type} {m : Build α} {P Q : α → Prop}

def Yields (m : Build α) (Q : α → Prop) : Prop :=
  ∀ b a b', b.IsApart → m.run b = .ok (a, b') → b'.IsApart ∧ Q a

/-- A computation keeps keys apart. -/
def Keeps (m : Build α) : Prop := Yields m fun _ => True

theorem Yields.pure {a : α} (h : Q a) : Yields (pure a) Q := by
  intro b a' b' hb hrun
  cases hrun
  exact ⟨hb, h⟩

theorem Yields.throw {e : Fault} : Yields (throw e) Q := by
  intro b a b' hb hrun
  cases hrun

theorem Yields.bind {f : α → Build β} {R : β → Prop} (hm : Yields m Q)
    (hf : ∀ a, Q a → Yields (f a) R) : Yields (m >>= f) R := by
  intro b c b' hb hrun
  rw [StateT.run_bind] at hrun
  cases hfirst : m.run b with
  | error e =>
    rw [hfirst] at hrun
    cases hrun
  | ok result =>
    obtain ⟨a, middle⟩ := result
    rw [hfirst] at hrun
    obtain ⟨hmiddle, ha⟩ := hm b a middle hb hfirst
    exact hf a ha middle c b' hmiddle hrun

private theorem Yields.forIn {xs : List α} {init : β} {R : β → Prop}
    {f : α → β → Build (ForInStep β)}
    (hinit : R init) (hstep : ∀ x acc, R acc → Yields (f x acc) fun step => R step.value) :
    Yields (forIn xs init f) R := by
  induction xs generalizing init with
  | nil => exact .pure hinit
  | cons x xs ih =>
    rw [List.forIn_cons]
    refine .bind (hstep x init hinit) fun step hvalue => ?_
    cases step with
    | done acc => exact .pure hvalue
    | yield acc => exact ih hvalue

theorem Keeps.pure {a : α} : Keeps (pure a) := Yields.pure trivial

theorem Keeps.throw {e : Fault} : Keeps (α := α) (throw e) := Yields.throw

theorem Keeps.bind {f : α → Build β} (hm : Keeps m) (hf : ∀ a, Keeps (f a)) : Keeps (m >>= f) :=
  Yields.bind hm fun a _ => hf a

theorem Keeps.unless {c : Bool} {e : Fault} {rest : PUnit → Build α}
    (h : Keeps (rest ⟨⟩)) : Keeps (if c then MonadExcept.throw e >>= rest else rest ⟨⟩) := by
  split
  · exact (Yields.throw : Yields _ fun _ => False).bind fun _ hnever => hnever.elim
  · exact h

theorem Keeps.then {f : α → Build β} {R : β → Prop} (hm : Keeps m) (hf : ∀ a, Yields (f a) R) :
    Yields (m >>= f) R :=
  Yields.bind hm fun a _ => hf a

private theorem Keeps.forIn {xs : List α} {init : β} {f : α → β → Build (ForInStep β)}
    (hstep : ∀ x acc, Keeps (f x acc)) : Keeps (forIn xs init f) :=
  Yields.forIn trivial fun x acc _ => hstep x acc

theorem Keeps.get : Keeps get := by
  intro b a b' hb hrun
  cases hrun
  exact ⟨hb, trivial⟩

theorem Keeps.modify {f : Builder → Builder} (h : ∀ b, b.IsApart → (f b).IsApart) :
    Keeps (modify f) := by
  intro b a b' hb hrun
  cases hrun
  exact ⟨h b hb, trivial⟩

private theorem Keeps.lift (e : Except Fault α) : Keeps (liftM e : Build α) := by
  intro b a b' hb hrun
  cases e with
  | error fault => cases hrun
  | ok a =>
    cases hrun
    exact ⟨hb, trivial⟩

/-! ## The computations -/

private theorem keeps_node (number : Nat) : Keeps (node number) := .bind .get fun _ => .pure

private theorem keeps_setKind (number : Nat) (kind : Kind) : Keeps (setKind number kind) :=
  .bind (.modify fun _ hb => hb) fun _ => .pure

section Computations

variable [Room]

private theorem keeps_textOf (depth fuel number : Nat) : Keeps (textOf depth fuel number) := by
  induction fuel generalizing depth number with
  | zero => exact .throw
  | succ fuel ih =>
    unfold textOf
    refine .unless ?_
    refine .bind (keeps_node number) fun n => ?_
    split
    · exact .pure
    · exact .throw
    · refine .bind (.forIn fun pair _ => .bind (keeps_node pair.1) fun key => ?_) fun found => ?_
      · split
        · exact .bind (ih _ pair.2) fun _ => .pure
        · exact .pure
      · dsimp only
        split
        · exact .pure
        · exact .throw

private theorem keeps_reach (number : Nat) : Keeps (reach number) := by
  have hcollection (kind : Kind) : Keeps (do
      modify fun s : Builder => { s with pending := number :: s.pending }
      setKind number kind) :=
    .bind (.modify fun _ hb => hb) fun _ => keeps_setKind number kind
  have hscalar (tag : Tag) (text : Str) : Keeps (do
      let s ← liftM (readScalar tag text)
      setKind number (.scalar s)) :=
    .bind (.lift _) fun s => keeps_setKind number (.scalar s)
  unfold reach
  refine .bind .get fun s => ?_
  split
  · exact .pure
  · refine .bind (keeps_node number) fun n => ?_
    dsimp only
    split
    case h_9 =>
      refine .bind (keeps_textOf _ _ number) fun text => ?_
      split
      · split
        · exact hscalar _ _
        · exact .bind .throw fun _ => hscalar _ _
      · exact hscalar _ _
    all_goals first | exact hcollection _ | exact .throw

private theorem keeps_flatten (depth fuel number : Nat) : Keeps (flatten depth fuel number) := by
  induction fuel generalizing depth number with
  | zero => exact .throw
  | succ fuel ih =>
    unfold flatten
    refine .unless ?_
    refine .bind (keeps_node number) fun n => ?_
    split
    · dsimp only
      refine .bind (.forIn fun pair _ => .bind (keeps_node pair.1) fun key => ?_) fun _ =>
        .bind (.modify fun _ hb => hb) fun _ => .pure
      split
      · refine .bind (.modify fun _ hb => hb) fun _ => .bind (keeps_node pair.2) fun merged => ?_
        split
        · exact .bind (ih _ pair.2) fun _ => .pure
        · refine .bind (.forIn fun item _ => .bind (keeps_node item) fun part => ?_) fun _ => .pure
          split
          · exact .bind (ih _ item) fun _ => .pure
          · exact .bind .throw fun _ => .pure
        · exact .bind .throw fun _ => .pure
      · split
        · exact .bind (.modify fun _ hb => hb) fun _ => .pure
        · exact .pure
    · exact .throw

private theorem keeps_reachEntries (number : Nat) : Keeps (reachEntries number) := by
  have hset (entries : List (Scalar × Nat)) (h : KeysApart entries) (b : Builder) (hb : b.IsApart) :
      Builder.IsApart { b with entries := b.entries.setIfInBounds number entries } := by
    intro others hmem
    rcases Array.mem_or_eq_of_mem_setIfInBounds hmem with hmem | rfl
    · exact hb others hmem
    · exact h
  unfold reachEntries
  refine .bind .get fun s => .bind (keeps_node number) fun n => ?_
  split
  · refine .bind (keeps_flatten _ _ number) fun pairs => ?_
    refine Yields.bind (.forIn .nil fun pair entries hentries => ?_) fun entries hentries =>
      Keeps.modify (hset entries hentries)
    refine (keeps_reach pair.1).then fun kind => ?_
    split
    · exact (keeps_reach pair.2).then fun _ => .pure (hentries.putEntry _ _)
    · exact .throw
  · exact .throw

private theorem keeps_reachParts (number : Nat) : Keeps (reachParts number) := by
  have hpairs (n : Node) : Keeps (reachParts.reachPairs n) := by
    unfold reachParts.reachPairs
    split
    · refine .bind (.forIn fun item _ => .bind (keeps_node item) fun part => ?_) fun _ => .pure
      split
      · exact .bind (keeps_reach _) fun _ => .bind (keeps_reach _) fun _ => .pure
      · exact .throw
    · exact .throw
  unfold reachParts
  refine .bind (keeps_node number) fun n => ?_
  split
  · split
    · exact .bind (.forIn fun item _ => .bind (keeps_reach item) fun _ => .pure) fun _ => .pure
    · exact .throw
  · exact hpairs n
  · exact hpairs n
  · exact keeps_reachEntries number

private theorem keeps_reachAll (levels : Nat) : Keeps (reachAll levels) := by
  induction levels with
  | zero => exact .pure
  | succ levels ih =>
    unfold reachAll
    refine .bind .get fun s => ?_
    dsimp only
    split
    · exact .pure
    · exact .bind (.modify fun _ hb => hb) fun _ =>
        .bind (.forIn fun number _ => .bind (keeps_reachParts number) fun _ => .pure) fun _ => ih

end Computations

end Build

/-! ## Values of documents -/

theorem Builder.IsApart.view {b : Builder} (h : b.IsApart) (depth number : Nat) :
    (b.view depth number).IsProper := by
  have hentries (n : Nat) : KeysApart (b.entries.getD n []) := by
    by_cases hn : n < b.entries.size
    · rw [Array.getD_eq_getD_getElem?, Array.getElem?_eq_getElem hn]
      exact h _ (Array.getElem_mem hn)
    · rw [Array.getD_eq_getD_getElem?, Array.getElem?_eq_none (by omega)]
      exact .nil
  induction depth generalizing number with
  | zero =>
    unfold Builder.view
    split
    · exact .scalar _
    · exact .list (by simp)
    · exact .mapping .nil (by simp)
    · exact .set (hentries number)
    · exact .scalar _
  | succ depth ih =>
    unfold Builder.view
    split
    · exact .scalar _
    · dsimp only
      split
      · refine .list fun item hitem => ?_
        obtain ⟨part, -, rfl⟩ := List.mem_map.mp hitem
        exact ih part
      · exact .list (by simp)
    · dsimp only
      refine .mapping ?_ fun entry hentry => ?_
      · rw [List.map_map]
        exact hentries number
      · obtain ⟨part, -, rfl⟩ := List.mem_map.mp hentry
        exact ih part.2
    · exact .set (hentries number)
    · exact .scalar _

theorem load_isProper [Room] {stream : Bytes} {document : Value} (h : load stream = .ok document) :
    document.IsProper := by
  have hstart (nodes : Array Node) : Builder.IsApart
      { nodes := nodes, kinds := .replicate nodes.size none,
        entries := .replicate nodes.size [] } := by
    intro entries hmem
    obtain ⟨-, rfl⟩ := Array.mem_replicate.mp hmem
    exact .nil
  unfold load at h
  split at h
  · rename_i characters _
    cases hcompose : compose characters with
    | error fault =>
      rw [hcompose] at h
      cases h
    | ok composed =>
      obtain ⟨nodes, root⟩ := composed
      rw [hcompose] at h
      cases root with
      | none =>
        obtain rfl := Except.ok.inj h
        exact .scalar _
      | some root =>
        have hreach : Build.Keeps (do
            let _ ← Build.reach root
            Build.reachAll (nodes.size + 1)) :=
          .bind (Build.keeps_reach root) fun _ => Build.keeps_reachAll _
        dsimp only [bind, Except.bind] at h
        split at h
        · cases h
        · rename_i hrun
          obtain rfl := Except.ok.inj h
          exact (hreach _ _ _ (hstart nodes) hrun).1.view _ _
  · cases h

end TlsGate.Yaml
