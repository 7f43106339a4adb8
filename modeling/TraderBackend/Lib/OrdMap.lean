import Mathlib

/-!
# Insertion-ordered maps

A map that remembers the order in which its keys were first set, as the maps of
a scripting language do: setting a key that is present replaces its value in
place, setting a new key appends it, deleting a key closes the gap.

* `OrdMap` — the map, carrying the proof that no key occurs twice.
* `get?`, `set`, `erase`, `keys`, `size` — the operations, with one lookup
  lemma for each (`get?_set`, `get?_erase`) from which the rest follows.
* `mapVal` — change every value, keys and order as they are.
* `filterMapVal` — rebuild a map value by value, dropping the keys whose value
  the function rejects; `filterMapVal_set_same`, `filterMapVal_set_none` and
  `filterMapVal_erase` say which updates such a view cannot see.
-/

/-- A finite map that keeps its keys in the order of their first insertion. -/
structure OrdMap (κ ν : Type*) where
  /-- Keys and values, oldest key first. -/
  entries : List (κ × ν)
  /-- No key occurs twice. -/
  nodup_keys : (entries.map Prod.fst).Nodup

namespace OrdMap

variable {κ ν : Type*}

@[ext] theorem ext {m n : OrdMap κ ν} (h : m.entries = n.entries) : m = n := by
  cases m; cases n; simp only at h; subst h; rfl

/-- Two maps are compared entry by entry, order included. -/
instance [DecidableEq κ] [DecidableEq ν] : DecidableEq (OrdMap κ ν) := fun m n =>
  decidable_of_iff (m.entries = n.entries) ⟨ext, fun h => by rw [h]⟩

/-- The map without entries. -/
def empty : OrdMap κ ν := ⟨[], List.nodup_nil⟩

/-- The keys, oldest first. -/
def keys (m : OrdMap κ ν) : List κ := m.entries.map Prod.fst

/-- The number of keys. -/
def size (m : OrdMap κ ν) : ℕ := m.entries.length

section

variable [DecidableEq κ]

/-! ## The operations on entry lists -/

/-- The value stored for `k`. -/
def lookupL (k : κ) : List (κ × ν) → Option ν
  | [] => none
  | (a, v) :: es => if a = k then some v else lookupL k es

/-- Replace the value of `k` in place, or append it. -/
def setL (k : κ) (v : ν) : List (κ × ν) → List (κ × ν)
  | [] => [(k, v)]
  | (a, w) :: es => if a = k then (a, v) :: es else (a, w) :: setL k v es

/-- Drop the entry of `k`. -/
def eraseL (k : κ) (es : List (κ × ν)) : List (κ × ν) := es.filter fun e => decide (e.1 ≠ k)

theorem keys_setL (k : κ) (v : ν) (es : List (κ × ν)) :
    (setL k v es).map Prod.fst =
      if k ∈ es.map Prod.fst then es.map Prod.fst else es.map Prod.fst ++ [k] := by
  induction es with
  | nil => simp [setL]
  | cons e es ih =>
    obtain ⟨a, w⟩ := e
    unfold setL
    by_cases h : a = k
    · simp [h]
    · simp only [if_neg h, List.map_cons, ih, List.mem_cons, Ne.symm h, false_or]
      split <;> simp

theorem lookupL_setL (k j : κ) (v : ν) (es : List (κ × ν)) :
    lookupL j (setL k v es) = if k = j then some v else lookupL j es := by
  induction es with
  | nil => simp [setL, lookupL]
  | cons e es ih =>
    obtain ⟨a, w⟩ := e
    unfold setL
    by_cases h : a = k
    · subst h
      by_cases hj : a = j <;> simp [lookupL, hj]
    · rw [if_neg h, lookupL, lookupL, ih]
      by_cases hj : a = j
      · subst hj
        simp [Ne.symm h]
      · simp [hj]

theorem lookupL_eraseL (k j : κ) (es : List (κ × ν)) :
    lookupL j (eraseL k es) = if k = j then none else lookupL j es := by
  induction es with
  | nil => simp [eraseL, lookupL]
  | cons e es ih =>
    obtain ⟨a, w⟩ := e
    rw [eraseL] at ih ⊢
    by_cases h : a = k
    · subst h
      rw [List.filter_cons_of_neg (by simp), ih]
      by_cases hj : a = j <;> simp [lookupL, hj]
    · rw [List.filter_cons_of_pos (by simpa using h), lookupL, lookupL, ih]
      by_cases hj : a = j
      · subst hj
        simp [Ne.symm h]
      · simp [hj]

theorem lookupL_eq_none {k : κ} {es : List (κ × ν)} :
    lookupL k es = none ↔ k ∉ es.map Prod.fst := by
  induction es with
  | nil => simp [lookupL]
  | cons e es ih =>
    obtain ⟨a, w⟩ := e
    rw [lookupL]
    by_cases h : a = k
    · simp [h]
    · simp [h, Ne.symm h, ih]

theorem lookupL_eq_some {k : κ} {v : ν} {es : List (κ × ν)} (hnd : (es.map Prod.fst).Nodup) :
    lookupL k es = some v ↔ (k, v) ∈ es := by
  induction es with
  | nil => simp [lookupL]
  | cons e es ih =>
    obtain ⟨a, w⟩ := e
    rw [List.map_cons, List.nodup_cons] at hnd
    rw [lookupL]
    by_cases h : a = k
    · subst h
      have hno : (a, v) ∉ es := fun hc => hnd.1 (List.mem_map.2 ⟨(a, v), hc, rfl⟩)
      simp [hno, eq_comm]
    · simp [h, Ne.symm h, ih hnd.2]

theorem setL_of_not_mem {k : κ} {v : ν} {es : List (κ × ν)} (h : k ∉ es.map Prod.fst) :
    setL k v es = es ++ [(k, v)] := by
  induction es with
  | nil => rfl
  | cons e es ih =>
    obtain ⟨a, w⟩ := e
    simp only [List.map_cons, List.mem_cons, not_or] at h
    rw [setL, if_neg (Ne.symm h.1), ih h.2, List.cons_append]

/-! ## The operations on maps -/

/-- The value stored for `k`, if any. -/
def get? (m : OrdMap κ ν) (k : κ) : Option ν := lookupL k m.entries

/-- Store `v` for `k`. -/
def set (m : OrdMap κ ν) (k : κ) (v : ν) : OrdMap κ ν where
  entries := setL k v m.entries
  nodup_keys := by
    rw [keys_setL]
    split
    · exact m.nodup_keys
    · rename_i h
      exact List.nodup_append.2 ⟨m.nodup_keys, List.nodup_singleton k, by
        intro a ha b hb; rw [List.mem_singleton.1 hb]; exact fun hab => h (hab ▸ ha)⟩

/-- Delete `k`. -/
def erase (m : OrdMap κ ν) (k : κ) : OrdMap κ ν where
  entries := eraseL k m.entries
  nodup_keys := m.nodup_keys.sublist (List.filter_sublist.map _)

@[simp] theorem get?_empty (k : κ) : (empty : OrdMap κ ν).get? k = none := rfl

theorem get?_set (m : OrdMap κ ν) (k j : κ) (v : ν) :
    (m.set k v).get? j = if k = j then some v else m.get? j :=
  lookupL_setL k j v m.entries

theorem get?_erase (m : OrdMap κ ν) (k j : κ) :
    (m.erase k).get? j = if k = j then none else m.get? j :=
  lookupL_eraseL k j m.entries

@[simp] theorem get?_set_self (m : OrdMap κ ν) (k : κ) (v : ν) :
    (m.set k v).get? k = some v := by
  rw [get?_set, if_pos rfl]

theorem get?_set_ne (m : OrdMap κ ν) {k j : κ} (v : ν) (h : k ≠ j) :
    (m.set k v).get? j = m.get? j := by
  rw [get?_set, if_neg h]

/-- `set` makes no key disappear. -/
theorem isSome_set {m : OrdMap κ ν} {j : κ} (k : κ) (v : ν) (h : (m.get? j).isSome) :
    ((m.set k v).get? j).isSome := by
  rw [get?_set]
  split
  · rfl
  · exact h

/-- What is found after `set` is what was stored, or it was there before. -/
theorem get?_set_cases {m : OrdMap κ ν} {k j : κ} {v w : ν} (h : (m.set k v).get? j = some w) :
    k = j ∧ v = w ∨ m.get? j = some w := by
  rw [get?_set] at h
  by_cases hkj : k = j
  · rw [if_pos hkj] at h
    exact Or.inl ⟨hkj, Option.some.inj h⟩
  · rw [if_neg hkj] at h
    exact Or.inr h

@[simp] theorem get?_erase_self (m : OrdMap κ ν) (k : κ) : (m.erase k).get? k = none := by
  rw [get?_erase, if_pos rfl]

theorem get?_eq_some {m : OrdMap κ ν} {k : κ} {v : ν} : m.get? k = some v ↔ (k, v) ∈ m.entries :=
  lookupL_eq_some m.nodup_keys

/-- Setting the value that is there changes nothing. -/
theorem set_of_get? {m : OrdMap κ ν} {k : κ} {v : ν} (h : m.get? k = some v) : m.set k v = m := by
  apply ext
  have key : ∀ es : List (κ × ν), lookupL k es = some v → setL k v es = es := by
    intro es
    induction es with
    | nil => intro h; cases h
    | cons e es ih =>
      obtain ⟨a, u⟩ := e
      intro h
      rw [lookupL] at h
      rw [setL]
      by_cases ha : a = k
      · rw [if_pos ha] at h ⊢
        rw [ha, Option.some.inj h]
      · rw [if_neg ha] at h ⊢
        rw [ih h]
  exact key m.entries h

theorem get?_eq_none {m : OrdMap κ ν} {k : κ} : m.get? k = none ↔ k ∉ m.keys :=
  lookupL_eq_none

theorem keys_set (m : OrdMap κ ν) (k : κ) (v : ν) :
    (m.set k v).keys = if k ∈ m.keys then m.keys else m.keys ++ [k] :=
  keys_setL k v m.entries

theorem mem_keys_set {m : OrdMap κ ν} {k j : κ} {v : ν} :
    j ∈ (m.set k v).keys ↔ j = k ∨ j ∈ m.keys := by
  rw [keys_set]
  split
  · rename_i h
    exact ⟨Or.inr, fun hj => hj.elim (fun e => e ▸ h) id⟩
  · simp [or_comm]

theorem entries_set_of_none {m : OrdMap κ ν} {k : κ} {v : ν} (h : m.get? k = none) :
    (m.set k v).entries = m.entries ++ [(k, v)] :=
  setL_of_not_mem (lookupL_eq_none.1 h)

omit [DecidableEq κ] in
theorem nodup_entries (m : OrdMap κ ν) : m.entries.Nodup := List.Nodup.of_map _ m.nodup_keys

theorem eraseL_setL (k : κ) (v : ν) (es : List (κ × ν)) : eraseL k (setL k v es) = eraseL k es := by
  induction es with
  | nil => simp [setL, eraseL]
  | cons e es ih =>
    obtain ⟨a, w⟩ := e
    rw [setL]
    by_cases h : a = k
    · simp [eraseL, h]
    · have ih' : (setL k v es).filter (fun e => decide (e.1 ≠ k)) =
          es.filter fun e => decide (e.1 ≠ k) := ih
      simp only [if_neg h, eraseL, List.filter_cons, ih']

/-- Deleting a key forgets what was stored for it. -/
theorem erase_set (m : OrdMap κ ν) (k : κ) (v : ν) : (m.set k v).erase k = m.erase k :=
  ext (eraseL_setL k v m.entries)

/-- Deleting a key that is not there changes nothing. -/
theorem erase_of_none {m : OrdMap κ ν} {k : κ} (h : m.get? k = none) : m.erase k = m := by
  refine ext (List.filter_eq_self.2 ?_)
  rintro ⟨a, v⟩ hav
  have hne : a ≠ k := by
    rintro rfl
    rw [get?_eq_some.2 hav] at h
    exact absurd h (by simp)
  simpa using hne

/-- A map is empty when it answers no key. -/
theorem size_eq_zero {m : OrdMap κ ν} : m.size = 0 ↔ ∀ k, m.get? k = none := by
  rw [size, List.length_eq_zero_iff]
  constructor
  · intro h k
    rw [get?, h, lookupL]
  · intro h
    apply List.eq_nil_iff_forall_not_mem.2
    rintro ⟨k, v⟩ hkv
    rw [← get?_eq_some, h k] at hkv
    exact absurd hkv (by simp)

/-- A map that answers some key is not empty. -/
theorem size_ne_zero_of_get? {m : OrdMap κ ν} {k : κ} {v : ν} (h : m.get? k = some v) :
    m.size ≠ 0 := by
  intro hc
  rw [size_eq_zero.1 hc k] at h
  exact absurd h (by simp)

end

/-! ## Rebuilding a map value by value -/

variable {μ : Type*}

/-- Replace every value by one computed from its key and itself. -/
def mapVal (f : κ → ν → μ) (m : OrdMap κ ν) : OrdMap κ μ where
  entries := m.entries.map fun e => (e.1, f e.1 e.2)
  nodup_keys := by simpa [List.map_map, Function.comp_def] using m.nodup_keys

theorem get?_mapVal [DecidableEq κ] (f : κ → ν → μ) (m : OrdMap κ ν) (k : κ) :
    (m.mapVal f).get? k = (m.get? k).map (f k) := by
  have key : ∀ es : List (κ × ν),
      lookupL k (es.map fun e => (e.1, f e.1 e.2)) = (lookupL k es).map (f k) := by
    intro es
    induction es with
    | nil => rfl
    | cons e es ih =>
      obtain ⟨a, v⟩ := e
      rw [List.map_cons, lookupL, lookupL]
      by_cases h : a = k
      · subst h; simp
      · simp only [if_neg h]; exact ih
  exact key m.entries

/-- Values that are kept make up the old map. -/
theorem mapVal_eq_self [DecidableEq κ] {f : κ → ν → ν} {m : OrdMap κ ν}
    (h : ∀ k v, m.get? k = some v → f k v = v) : m.mapVal f = m := by
  apply ext
  show m.entries.map (fun e => (e.1, f e.1 e.2)) = m.entries
  refine (List.map_congr_left fun e he => ?_).trans (List.map_id _)
  rw [h e.1 e.2 (get?_eq_some.2 he), id]

/-- Apply `f` to every value and drop the keys whose value it rejects. -/
def filterMapVal (f : ν → Option μ) (m : OrdMap κ ν) : OrdMap κ μ where
  entries := m.entries.filterMap fun e => (f e.2).map fun v => (e.1, v)
  nodup_keys := by
    have hsub : ((m.entries.filterMap fun e => (f e.2).map fun v => (e.1, v)).map
        Prod.fst).Sublist (m.entries.map Prod.fst) := by
      induction m.entries with
      | nil => simp
      | cons e es ih =>
        cases h : f e.2 with
        | none => simpa [h] using ih.trans (List.sublist_cons_self _ _)
        | some v => simpa [h] using ih
    exact m.nodup_keys.sublist hsub

section

variable [DecidableEq κ]

/-- Replacing a value by one the view reads alike is not seen. -/
theorem filterMapVal_set_same {f : ν → Option μ} {m : OrdMap κ ν} {k : κ} {v w : ν}
    (hk : m.get? k = some w) (hf : f v = f w) :
    (m.set k v).filterMapVal f = m.filterMapVal f := by
  apply ext
  have key : ∀ es : List (κ × ν), lookupL k es = some w →
      (setL k v es).filterMap (fun e => (f e.2).map fun x => (e.1, x)) =
        es.filterMap (fun e => (f e.2).map fun x => (e.1, x)) := by
    intro es
    induction es with
    | nil => intro h; simp [lookupL] at h
    | cons e es ih =>
      obtain ⟨a, u⟩ := e
      intro h
      rw [lookupL] at h
      rw [setL]
      by_cases ha : a = k
      · rw [if_pos ha] at h ⊢
        have hu : u = w := Option.some.inj h
        simp [List.filterMap_cons, hf, hu]
      · rw [if_neg ha] at h ⊢
        rw [List.filterMap_cons, List.filterMap_cons, ih h]
  exact key m.entries hk

/-- Adding a key with a value the view rejects is not seen. -/
theorem filterMapVal_set_none {f : ν → Option μ} {m : OrdMap κ ν} {k : κ} {v : ν}
    (hk : m.get? k = none) (hf : f v = none) :
    (m.set k v).filterMapVal f = m.filterMapVal f := by
  apply ext
  show ((m.set k v).entries.filterMap _) = _
  rw [entries_set_of_none hk, List.filterMap_append]
  simp [hf, filterMapVal]

/-- Deleting a key whose value the view rejects is not seen. -/
theorem filterMapVal_erase {f : ν → Option μ} {m : OrdMap κ ν} {k : κ}
    (hk : ∀ w, m.get? k = some w → f w = none) :
    (m.erase k).filterMapVal f = m.filterMapVal f := by
  apply ext
  show ((eraseL k m.entries).filterMap _) = m.entries.filterMap _
  rw [eraseL, List.filterMap_filter]
  apply List.filterMap_congr
  rintro ⟨a, w⟩ haw
  by_cases ha : a = k
  · subst ha
    simp [hk w (get?_eq_some.2 haw)]
  · simp [ha]

/-- A view that keeps every value of the map is the map. -/
theorem filterMapVal_id {f : ν → Option ν} {m : OrdMap κ ν}
    (hf : ∀ k v, m.get? k = some v → f v = some v) : m.filterMapVal f = m := by
  apply ext
  show m.entries.filterMap _ = m.entries
  conv_rhs => rw [← List.filterMap_some (l := m.entries)]
  apply List.filterMap_congr
  rintro ⟨k, v⟩ hkv
  simp [hf k v (get?_eq_some.2 hkv)]

end

end OrdMap
