import Mathlib.Data.List.Infix
import TlsGate.Server.Run

/-!
What reading a file depends on: the nodes on the trail of its path and no others. So a change of
the files somewhere else leaves what is read at the path as it was, and the same change of two file
systems leaves them alike wherever they were.
-/

set_option autoImplicit false
set_option relaxedAutoImplicit false

namespace TlsGate

namespace FileSystem

variable {fs fs' : FileSystem}

def trailFrom : Location → List Bytes → List Location
  | place, [] => [place]
  | place, name :: names => place :: (place ++ [name]) :: trailFrom (follow place name) names

def trail (fs : FileSystem) (path : Str) : List Location :=
  let name := path.nameBytes?.getD []
  trailFrom (fs.base name) (components name)

private theorem enter_eq_ok {place found : Location} {name : Bytes}
    (h : fs.enter place name = .ok found) : found = follow place name := by
  unfold enter at h
  unfold follow
  split at h
  · split at h
    · rename_i hname
      rw [if_pos hname, Except.ok.inj h]
    · rename_i hname
      rw [if_neg hname]
      split at h
      · rename_i hup
        rw [if_pos hup, Except.ok.inj h]
      · rename_i hup
        rw [if_neg hup]
        split at h
        · cases h
        · dsimp only at h
          split at h
          · exact (Except.ok.inj h).symm
          · cases h
  · cases h
  · cases h

private theorem enter_congr {place : Location} {name : Bytes}
    (hplace : fs'.node? place = fs.node? place)
    (hnext : fs'.node? (place ++ [name]) = fs.node? (place ++ [name])) :
    fs'.enter place name = fs.enter place name := by
  simp only [enter, hplace, hnext]

private theorem follow_congr {place : Location} {names : List Bytes}
    (h : ∀ q ∈ trailFrom place names, fs'.node? q = fs.node? q) :
    names.foldlM fs'.enter place = names.foldlM fs.enter place ∧
      ∀ q, names.foldlM fs.enter place = .ok q → fs'.node? q = fs.node? q := by
  induction names generalizing place with
  | nil =>
    refine ⟨rfl, fun q hq => ?_⟩
    obtain rfl := Except.ok.inj hq
    exact h place List.mem_cons_self
  | cons name names ih =>
    simp only [trailFrom, List.forall_mem_cons] at h
    obtain ⟨hplace, hnext, hrest⟩ := h
    have henter := enter_congr hplace hnext
    simp only [List.foldlM_cons, henter]
    cases hstep : fs.enter place name with
    | error fault => exact ⟨rfl, nofun⟩
    | ok found =>
      rw [← enter_eq_ok hstep] at hrest
      exact ih hrest

private theorem base_congr (hhome : fs'.home = fs.home) (path : Bytes) :
    fs'.base path = fs.base path := by
  simp only [base, hhome]

private theorem read_congr {path : Str} (hhome : fs'.home = fs.home)
    (h : ∀ q ∈ fs.trail path, fs'.node? q = fs.node? q) : fs'.read path = fs.read path := by
  obtain ⟨hfollow, hnode⟩ := follow_congr h
  have hresolve : fs'.resolve path = fs.resolve path := by
    unfold resolve
    cases hname : path.nameBytes? with
    | none => rfl
    | some name =>
      simp only [hname, Option.getD_some] at hfollow
      simp only [base_congr hhome, hfollow]
  unfold read
  rw [hresolve]
  cases hplace : fs.resolve path with
  | error fault => rfl
  | ok place =>
    have hsame : fs'.node? place = fs.node? place := by
      refine hnode place ?_
      unfold resolve at hplace
      cases hname : path.nameBytes? with
      | none =>
        rw [hname] at hplace
        cases hplace
      | some name =>
        simp only [hname] at hplace
        split at hplace
        · cases hplace
        · split at hplace
          · cases hplace
          · split at hplace
            · cases hplace
            · exact hplace
    simp only [bind, Except.bind, hsame]

/-! ## Changes elsewhere -/

variable {l q : Location} {n : FileNode}

private theorem node?_put_of_ne (h : q ≠ l) : (fs.put l n).node? q = fs.node? q := by
  have hhead : ((l, n).1 == q) = false := beq_eq_false_iff_ne.mpr h.symm
  have hrest : (fs.nodes.filter (·.1 != l)).find? (·.1 == q) = fs.nodes.find? (·.1 == q) := by
    rw [List.find?_filter]
    congr 1
    funext entry
    by_cases hentry : entry.1 = q
    · simp [hentry, h]
    · simp [hentry]
  simp only [node?, put, List.find?_cons, hhead, hrest]

private theorem node?_remove_of_apart {path : Bytes} (h : ¬ fs.target path <+: q) :
    (fs.remove path).node? q = fs.node? q := by
  have hnot : (fs.target path).isPrefixOf q = false := by
    rwa [Bool.eq_false_iff, ne_eq, List.isPrefixOf_iff_prefix]
  have hrest : (fs.nodes.filter fun entry => !(fs.target path).isPrefixOf entry.1).find?
      (·.1 == q) = fs.nodes.find? (·.1 == q) := by
    rw [List.find?_filter]
    congr 1
    funext entry
    by_cases hentry : entry.1 = q
    · simp [hentry, hnot]
    · simp [hentry]
  simp only [node?, remove, hrest]

def directed (fs : FileSystem) (place : Location) : FileSystem :=
  if (fs.node? place).isSome then fs else fs.put place .directory

private theorem write_eq (fs : FileSystem) (path : Bytes) (n : FileNode) :
    fs.write path n = (((List.range (fs.target path).length).map (fs.target path).take).foldl
      directed (fs.remove path)).put (fs.target path) n := rfl

private theorem node?_directed_of_ne {place : Location} (h : q ≠ place) :
    (fs.directed place).node? q = fs.node? q := by
  unfold directed
  split
  · rfl
  · exact node?_put_of_ne h

private theorem home_directed (fs : FileSystem) (place : Location) :
    (fs.directed place).home = fs.home := by
  unfold directed
  split <;> rfl

private theorem node?_foldl_directed {places : List Location}
    (h : q ∈ places → (fs.node? q).isSome) :
    (places.foldl directed fs).node? q = fs.node? q := by
  induction places generalizing fs with
  | nil => rfl
  | cons place places ih =>
    have hplace : (fs.directed place).node? q = fs.node? q := by
      by_cases hq : q = place
      · rw [directed, if_pos (hq ▸ h (by simp [hq]))]
      · exact node?_directed_of_ne hq
    rw [List.foldl_cons, ih, hplace]
    intro hmem
    rw [hplace]
    exact h (List.mem_cons_of_mem _ hmem)

private theorem home_write (path : Bytes) : (fs.write path n).home = fs.home := by
  have hplaces (places : List Location) (fs : FileSystem) :
      (places.foldl directed fs).home = fs.home := by
    induction places generalizing fs with
    | nil => rfl
    | cons place places ih => exact (ih _).trans (home_directed fs place)
  exact hplaces _ _

private theorem node?_write {path : Bytes} (hapart : ¬ fs.target path <+: q)
    (habove : q <+: fs.target path → (fs.node? q).isSome) :
    (fs.write path n).node? q = fs.node? q := by
  have hne : q ≠ fs.target path := by
    rintro rfl
    exact hapart (List.prefix_refl _)
  have hremove := node?_remove_of_apart hapart
  rw [write_eq, node?_put_of_ne hne, node?_foldl_directed, hremove]
  intro hmem
  obtain ⟨i, -, rfl⟩ := List.mem_map.mp hmem
  rw [hremove]
  exact habove (List.take_prefix ..)

/-! ## The same change twice -/

def AgreeAt (fs fs' : FileSystem) (q : Location) : Prop :=
  fs'.home = fs.home ∧ fs'.node? q = fs.node? q

theorem AgreeAt.refl (fs : FileSystem) (q : Location) : fs.AgreeAt fs q := ⟨rfl, rfl⟩

theorem AgreeAt.trans {fs'' : FileSystem} (h : fs.AgreeAt fs' q) (h' : fs'.AgreeAt fs'' q) :
    fs.AgreeAt fs'' q :=
  ⟨h'.1.trans h.1, h'.2.trans h.2⟩

theorem AgreeAt.symm (h : fs.AgreeAt fs' q) : fs'.AgreeAt fs q := ⟨h.1.symm, h.2.symm⟩

theorem AgreeAt.put (h : fs.AgreeAt fs' q) (l : Location) (n : FileNode) :
    (fs.put l n).AgreeAt (fs'.put l n) q := by
  refine ⟨h.1, ?_⟩
  by_cases hq : q = l
  · subst hq
    have hput (fs : FileSystem) :
        (fs.put q n).node? q = if q.isPrefixOf fs.home then some .directory else some n := by
      simp [node?, FileSystem.put]
    rw [hput, hput, h.1]
  · rw [node?_put_of_ne hq, node?_put_of_ne hq, h.2]

theorem AgreeAt.target (h : fs.AgreeAt fs' q) (path : Bytes) :
    fs'.target path = fs.target path := by
  simp only [FileSystem.target, base_congr h.1]

theorem AgreeAt.remove (h : fs.AgreeAt fs' q) (path : Bytes) :
    (fs.remove path).AgreeAt (fs'.remove path) q := by
  refine ⟨h.1, ?_⟩
  by_cases hbelow : fs.target path <+: q
  · have hremove {fs : FileSystem} (hbelow : fs.target path <+: q) :
        (fs.remove path).node? q = if q.isPrefixOf fs.home then some .directory else none := by
      have hnone : (fs.nodes.filter fun entry => !(fs.target path).isPrefixOf entry.1).find?
          (·.1 == q) = none := by
        rw [List.find?_eq_none]
        intro entry hentry
        have hapart := (List.mem_filter.mp hentry).2
        simp only [Bool.not_eq_true', ← Bool.not_eq_true, List.isPrefixOf_iff_prefix] at hapart
        rintro hq
        exact hapart (by simpa [beq_iff_eq.mp hq] using hbelow)
      simp only [node?, FileSystem.remove, hnone, Option.map_none]
    rw [hremove hbelow, hremove (by rwa [h.target path]), h.1]
  · rw [node?_remove_of_apart hbelow, node?_remove_of_apart (by rwa [h.target path]), h.2]

private theorem AgreeAt.directed (h : fs.AgreeAt fs' q) (place : Location) :
    (fs.directed place).AgreeAt (fs'.directed place) q := by
  by_cases hq : q = place
  · subst hq
    unfold FileSystem.directed
    rw [h.2]
    split
    · exact h
    · exact h.put q .directory
  · -- a directory that is made somewhere else makes no difference here
    have hmade (fs : FileSystem) : fs.AgreeAt (fs.directed place) q :=
      ⟨home_directed fs place, node?_directed_of_ne hq⟩
    exact (hmade fs).symm.trans (h.trans (hmade fs'))

private theorem AgreeAt.foldl_directed (h : fs.AgreeAt fs' q) (places : List Location) :
    (places.foldl FileSystem.directed fs).AgreeAt (places.foldl FileSystem.directed fs') q := by
  induction places generalizing fs fs' with
  | nil => exact h
  | cons place places ih => exact ih (h.directed place)

theorem AgreeAt.write (h : fs.AgreeAt fs' q) (path : Bytes) (n : FileNode) :
    (fs.write path n).AgreeAt (fs'.write path n) q := by
  rw [write_eq, write_eq, h.target path]
  exact ((h.remove path).foldl_directed _).put _ n

def AgreeOn (fs fs' : FileSystem) (path : Str) : Prop :=
  ∀ q ∈ fs.trail path, fs.AgreeAt fs' q

theorem AgreeOn.refl (fs : FileSystem) (path : Str) : fs.AgreeOn fs path :=
  fun q _ => .refl fs q

private theorem exists_mem_trailFrom (place : Location) (names : List Bytes) :
    ∃ q, q ∈ trailFrom place names := by
  cases names with
  | nil => exact ⟨_, List.mem_cons_self⟩
  | cons name names => exact ⟨_, List.mem_cons_self⟩

theorem AgreeOn.home {path : Str} (h : fs.AgreeOn fs' path) : fs'.home = fs.home := by
  obtain ⟨q, hq⟩ := exists_mem_trailFrom _ _
  exact (h q hq).1

private theorem AgreeOn.trail {path : Str} (h : fs.AgreeOn fs' path) :
    fs'.trail path = fs.trail path := by
  simp only [FileSystem.trail, base_congr h.home]

theorem AgreeOn.symm {path : Str} (h : fs.AgreeOn fs' path) : fs'.AgreeOn fs path :=
  fun q hq => (h q (h.trail ▸ hq)).symm

theorem AgreeOn.trans {fs'' : FileSystem} {path : Str} (h : fs.AgreeOn fs' path)
    (h' : fs'.AgreeOn fs'' path) : fs.AgreeOn fs'' path :=
  fun q hq => (h q hq).trans (h' q (h.trail.symm ▸ hq))

theorem AgreeOn.read {path : Str} (h : fs.AgreeOn fs' path) : fs'.read path = fs.read path :=
  read_congr h.home fun q hq => (h q hq).2

end FileSystem

namespace Server

open FileSystem

/-- Where a change takes place. -/
def FileEdit.target (fs : FileSystem) : FileEdit → Location
  | .write path _ => fs.target path
  | .remove path => fs.target path

def FileEdit.IsApart (fs : FileSystem) (e : FileEdit) (path : Str) : Prop :=
  ∀ q ∈ fs.trail path, ¬ e.target fs <+: q ∧ (q <+: e.target fs → (fs.node? q).isSome)

instance (fs : FileSystem) (e : FileEdit) (path : Str) : Decidable (e.IsApart fs path) :=
  inferInstanceAs (Decidable (∀ q ∈ fs.trail path,
    ¬ e.target fs <+: q ∧ (q <+: e.target fs → (fs.node? q).isSome)))

private theorem FileEdit.home_apply (fs : FileSystem) (e : FileEdit) :
    (e.apply fs).home = fs.home := by
  cases e with
  | write path n => exact home_write path
  | remove path => rfl

private theorem FileEdit.trail_apply (fs : FileSystem) (e : FileEdit) (path : Str) :
    (e.apply fs).trail path = fs.trail path := by
  simp only [trail, base_congr (e.home_apply fs)]

theorem FileEdit.agreeOn_of_isApart {fs : FileSystem} {e : FileEdit} {path : Str}
    (h : e.IsApart fs path) : fs.AgreeOn (e.apply fs) path := by
  intro q hq
  refine ⟨e.home_apply fs, ?_⟩
  cases e with
  | write written n => exact node?_write (h q hq).1 (h q hq).2
  | remove removed => exact node?_remove_of_apart (h q hq).1

theorem FileEdit.agreeOn_apply {fs fs' : FileSystem} {path : Str} (h : fs.AgreeOn fs' path)
    (e : FileEdit) : (e.apply fs).AgreeOn (e.apply fs') path := by
  intro q hq
  rw [trail_apply] at hq
  cases e with
  | write written n => exact (h q hq).write written n
  | remove removed => exact (h q hq).remove removed

end Server

end TlsGate
