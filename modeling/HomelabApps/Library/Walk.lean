import Mathlib.Data.List.Basic

universe u v

namespace HomelabApps.Library

variable {κ : Type u} {ρ : Type v}

inductive Turn (κ : Type u) (ρ : Type v)
  | stop (result : Option ρ)
  | go (next : κ)
  deriving DecidableEq

structure Links (κ : Type u) (ρ : Type v) where
  turn : κ → Turn κ ρ
  names : List κ
  mem_names : ∀ name next, turn name = .go next → name ∈ names

namespace Links

variable {links : Links κ ρ} {visited : List κ} {name next : κ} {result other : ρ} {m n : Nat}

inductive ReachesIn (links : Links κ ρ) : Nat → κ → ρ → Prop
  | stop {name : κ} {result : ρ} : links.turn name = .stop (some result) → ReachesIn links 0 name result
  | go {n : Nat} {name next : κ} {result : ρ} : links.turn name = .go next → ReachesIn links n next result →
      ReachesIn links (n + 1) name result

theorem ReachesIn.unique (h : links.ReachesIn m name result) (h' : links.ReachesIn n name other) :
    m = n ∧ result = other := by
  induction h generalizing n with
  | stop hturn =>
    cases h' with
    | stop hturn' =>
      rw [hturn] at hturn'
      cases hturn'
      exact ⟨rfl, rfl⟩
    | go hturn' _ =>
      rw [hturn] at hturn'
      cases hturn'
  | go hturn _ ih =>
    cases h' with
    | stop hturn' =>
      rw [hturn] at hturn'
      cases hturn'
    | go hturn' hnext =>
      rw [hturn] at hturn'
      cases hturn'
      obtain ⟨hsteps, hresult⟩ := ih hnext
      exact ⟨congrArg Nat.succ hsteps, hresult⟩

variable [DecidableEq κ]

def unseen (links : Links κ ρ) (visited : List κ) : List κ := links.names.filter (· ∉ visited)

theorem unseen_cons (hnew : name ∉ visited) (hname : name ∈ links.names) :
    (links.unseen (name :: visited)).length < (links.unseen visited).length := by
  have hfilter : links.unseen (name :: visited) = (links.unseen visited).filter (· ≠ name) := by
    rw [unseen, unseen, List.filter_filter]
    apply List.filter_congr
    intro other _
    simp [not_or]
  rw [hfilter, List.length_filter_lt_length_iff_exists]
  refine ⟨name, List.mem_filter.mpr ⟨hname, decide_eq_true hnew⟩, ?_⟩
  simp

def walk (links : Links κ ρ) (visited : List κ) (name : κ) : Option ρ :=
  if _hnew : name ∈ visited then none
  else
    match _hturn : links.turn name with
    | .stop result => result
    | .go next => links.walk (name :: visited) next
termination_by (links.unseen visited).length
decreasing_by exact unseen_cons _hnew (links.mem_names _ _ _hturn)

theorem walk_of_mem (h : name ∈ visited) : links.walk visited name = none := by rw [walk, dif_pos h]

theorem walk_of_stop {result : Option ρ} (hnew : name ∉ visited) (hturn : links.turn name = .stop result) :
    links.walk visited name = result := by
  rw [walk, dif_neg hnew]
  split
  · rename_i hother
    exact Turn.stop.inj (hother.symm.trans hturn)
  · rename_i hother
    cases hother.symm.trans hturn

theorem walk_of_go (hnew : name ∉ visited) (hturn : links.turn name = .go next) :
    links.walk visited name = links.walk (name :: visited) next := by
  rw [walk, dif_neg hnew]
  split
  · rename_i hother
    cases hother.symm.trans hturn
  · rename_i hother
    rw [Turn.go.inj (hother.symm.trans hturn)]

theorem reachesIn_of_walk (h : links.walk visited name = some result) : ∃ n, links.ReachesIn n name result := by
  induction visited, name using walk.induct links with
  | case1 visited name hseen =>
    rw [walk_of_mem hseen] at h
    cases h
  | case2 visited name hnew found hturn =>
    rw [walk_of_stop hnew hturn] at h
    exact ⟨0, .stop (h ▸ hturn)⟩
  | case3 visited name hnew next hturn ih =>
    rw [walk_of_go hnew hturn] at h
    obtain ⟨n, hn⟩ := ih h
    exact ⟨n + 1, .go hturn hn⟩

theorem ReachesIn.walk (h : links.ReachesIn n name result)
    (hvisited : ∀ seen ∈ visited, ∃ m, n < m ∧ links.ReachesIn m seen result) :
    links.walk visited name = some result := by
  have hnew : name ∉ visited := by
    intro hseen
    obtain ⟨m, hm, hreaches⟩ := hvisited name hseen
    exact absurd (h.unique hreaches).1 (Nat.ne_of_lt hm)
  induction h generalizing visited with
  | stop hturn => exact walk_of_stop hnew hturn
  | @go steps passed next found hturn hnext ih =>
    have hfarther : ∀ seen ∈ passed :: visited, ∃ m, steps < m ∧ links.ReachesIn m seen found := by
      intro seen hseen
      cases List.mem_cons.mp hseen with
      | inl heq => exact ⟨_, Nat.lt_succ_self _, heq ▸ .go hturn hnext⟩
      | inr hseen =>
        obtain ⟨m, hm, hreaches⟩ := hvisited seen hseen
        exact ⟨m, Nat.lt_of_succ_lt hm, hreaches⟩
    rw [walk_of_go hnew hturn]
    apply ih hfarther
    intro hseen
    obtain ⟨m, hm, hreaches⟩ := hfarther _ hseen
    exact absurd (hnext.unique hreaches).1 (Nat.ne_of_lt hm)

theorem walk_eq_some : links.walk [] name = some result ↔ ∃ n, links.ReachesIn n name result := by
  constructor
  · exact reachesIn_of_walk
  · intro h
    obtain ⟨n, hreaches⟩ := h
    exact hreaches.walk (List.forall_mem_nil _)

end Links

end HomelabApps.Library
