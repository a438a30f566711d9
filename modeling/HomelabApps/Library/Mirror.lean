import Mathlib.Data.List.Nodup

/-! A keyed copy of a source kept up to date by changes: items put, keys dropped, or everything but
some keys dropped. A delta between two listings of the source against a full listing of the second. -/

universe u v w

namespace HomelabApps.Library.Mirror

inductive Change (κ : Type u) (σ : Type v)
  | put (item : κ × σ)
  | drop (keys : List κ)
  | keep (keys : List κ)

variable {κ : Type u} {σ τ : Type v} {ε : Type w}

def Change.map (f : σ → τ) : Change κ σ → Change κ τ
  | .put item => .put (item.1, f item.2)
  | .drop keys => .drop keys
  | .keep keys => .keep keys

def keys (items : List (κ × σ)) : List κ := items.map (·.1)

variable {x : κ} {s : σ} {items : List (κ × σ)}

theorem mem_keys (h : (x, s) ∈ items) : x ∈ keys items := List.mem_map_of_mem h

theorem exists_of_mem_keys (h : x ∈ keys items) : ∃ s, (x, s) ∈ items := by
  obtain ⟨⟨k, s⟩, hmem, rfl⟩ := List.mem_map.mp h
  exact ⟨s, hmem⟩

theorem item_unique (h : (keys items).Nodup) {s' : σ} (hs : (x, s) ∈ items) (hs' : (x, s') ∈ items) :
    s = s' :=
  congrArg Prod.snd (List.inj_on_of_nodup_map h hs hs' rfl)

/-- `changed` and `deleted` lead from the listing `base` to the listing `head`. -/
structure Delta (base head changed : List (κ × σ)) (deleted : List κ) : Prop where
  once : (keys changed).Nodup
  read : ∀ item ∈ changed, item ∈ head
  dropped : ∀ k ∈ deleted, k ∈ keys head → k ∈ keys changed
  unchanged : ∀ item ∈ head, item.1 ∉ keys changed → item ∈ base
  gone : ∀ k ∈ keys base, k ∉ keys head → k ∈ deleted

theorem delta_self : Delta items items [] [] where
  once := List.nodup_nil
  read _ h := by cases h
  dropped _ h := by cases h
  unchanged _ h _ := h
  gone _ h h' := absurd h h'

variable [DecidableEq κ]

/-- What a change does to the entry of a key; `put` makes an item an entry, by the entry there was. -/
def Change.at (put : σ → Option ε → Option ε) (x : κ) (e : Option ε) : Change κ σ → Option ε
  | .put item => if item.1 = x then put item.2 e else e
  | .drop keys => if x ∈ keys then none else e
  | .keep keys => if x ∈ keys then e else none

def entryAt (put : σ → Option ε → Option ε) (x : κ) (e : Option ε) (changes : List (Change κ σ)) :
    Option ε :=
  changes.foldl (Change.at put x) e

def incremental (changed : List (κ × σ)) (deleted : List κ) : List (Change κ σ) :=
  changed.map .put ++ [.drop (deleted.filter fun k => k ∉ keys changed)]

def full (items : List (κ × σ)) : List (Change κ σ) := items.map .put ++ [.keep (keys items)]

variable {put : σ → Option ε → Option ε} {e : Option ε}
  {base head changed : List (κ × σ)} {deleted : List κ} {changes changes' : List (Change κ σ)}

theorem entryAt_append : entryAt put x e (changes ++ changes') =
    entryAt put x (entryAt put x e changes) changes' :=
  List.foldl_append

theorem entryAt_map {put : τ → Option ε → Option ε} (f : σ → τ) :
    entryAt put x e (changes.map (Change.map f)) = entryAt (fun s => put (f s)) x e changes := by
  rw [entryAt, List.foldl_map, entryAt]
  congr 1
  funext e c
  cases c <;> rfl

theorem entryAt_puts_of_notMem (put : σ → Option ε → Option ε) (e : Option ε) (h : x ∉ keys items) :
    entryAt put x e (items.map .put) = e := by
  induction items generalizing e with
  | nil => rfl
  | cons item items ih =>
    simp only [keys, List.map_cons, List.mem_cons, not_or] at h
    rw [List.map_cons, entryAt, List.foldl_cons, Change.at, if_neg (Ne.symm h.1)]
    exact ih e h.2

theorem entryAt_puts (hnodup : (keys items).Nodup) (h : (x, s) ∈ items) :
    entryAt put x e (items.map .put) = put s e := by
  obtain ⟨before, after, rfl⟩ := List.append_of_mem h
  simp only [keys, List.map_append, List.map_cons, List.nodup_middle, List.nodup_cons,
    List.mem_append, not_or] at hnodup
  have hbefore := entryAt_puts_of_notMem put e hnodup.1.1
  have hafter := entryAt_puts_of_notMem put (put s e) hnodup.1.2
  rw [List.map_append, List.map_cons, entryAt_append, hbefore, entryAt, List.foldl_cons, Change.at,
    if_pos rfl]
  exact hafter

theorem entryAt_incremental_changed (hnodup : (keys changed).Nodup) (h : (x, s) ∈ changed) :
    entryAt put x e (incremental changed deleted) = put s e := by
  rw [incremental, entryAt_append, entryAt_puts hnodup h, entryAt, List.foldl_cons, Change.at, if_neg]
  · rfl
  · simp [mem_keys h]

theorem entryAt_incremental_deleted (hx : x ∉ keys changed) (h : x ∈ deleted) :
    entryAt put x e (incremental changed deleted) = none := by
  rw [incremental, entryAt_append, entryAt, List.foldl_cons, Change.at, if_pos (by simp [h, hx])]
  rfl

theorem entryAt_incremental_unnamed (hx : x ∉ keys changed) (h : x ∉ deleted) :
    entryAt put x e (incremental changed deleted) = e := by
  rw [incremental, entryAt_append, entryAt_puts_of_notMem _ _ hx, entryAt, List.foldl_cons, Change.at,
    if_neg (by simp [h])]
  rfl

theorem entryAt_full (hnodup : (keys items).Nodup) (h : (x, s) ∈ items) :
    entryAt put x e (full items) = put s e := by
  rw [full, entryAt_append, entryAt_puts hnodup h, entryAt, List.foldl_cons, Change.at,
    if_pos (mem_keys h)]
  rfl

theorem entryAt_full_of_notMem (h : x ∉ keys items) : entryAt put x e (full items) = none := by
  rw [full, entryAt_append, entryAt, List.foldl_cons, Change.at, if_neg h]
  rfl

/-- A delta does what the full listing does, up to a relation between entries that holds of what is
put twice and of an entry with what putting its unchanged item makes of it. -/
theorem entryAt_delta (R : Option ε → Option ε → Prop) (hdelta : Delta base head changed deleted)
    (hnodup : (keys head).Nodup) (hrefl : ∀ e, R e e)
    (hstored : x ∉ keys base → e = none)
    (hsame : ∀ s, (x, s) ∈ base → (x, s) ∈ head → R e (put s e)) :
    R (entryAt put x e (incremental changed deleted)) (entryAt put x e (full head)) := by
  by_cases hchanged : x ∈ keys changed
  · obtain ⟨s, hs⟩ := exists_of_mem_keys hchanged
    rw [entryAt_incremental_changed hdelta.once hs, entryAt_full hnodup (hdelta.read _ hs)]
    exact hrefl _
  by_cases hhead : x ∈ keys head
  · obtain ⟨s, hs⟩ := exists_of_mem_keys hhead
    have hdeleted : x ∉ deleted := fun h => hchanged (hdelta.dropped x h hhead)
    rw [entryAt_incremental_unnamed hchanged hdeleted, entryAt_full hnodup hs]
    exact hsame s (hdelta.unchanged _ hs hchanged) hs
  · rw [entryAt_full_of_notMem hhead]
    by_cases hdeleted : x ∈ deleted
    · rw [entryAt_incremental_deleted hchanged hdeleted]
      exact hrefl _
    · rw [entryAt_incremental_unnamed hchanged hdeleted,
        hstored fun hbase => hdeleted (hdelta.gone x hbase hhead)]
      exact hrefl _

end HomelabApps.Library.Mirror
