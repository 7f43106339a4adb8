import Mathlib

/-!
# A ring of the last few values

A fixed number of slots written one after another, the oldest value being
overwritten, and a pointer to the slot that is written next.

* **The ring.**  `RingBuffer.push` writes a slot and moves the pointer; `RingBuffer.offer`
  pushes a value only if no slot holds it.
* **The window it stands for.**  `RingBuffer.Holds r granted`: the slots of `r` are the
  last `n` values of the list `granted`.  `holds_push` keeps this up, and
  `mem_slots_iff` says that searching the slots is searching that window.
* **Offers as a list.**  `granted` filters a list of offered values through a
  window of its own output; `holds_offer` says the ring computes it.
* **What lies in the slots.**  `nodup_window_grant`, `slots_perm`: the values of a window
  are pairwise different, and each lies in one slot.
-/

/-- `n` slots and the index of the slot to be written next. -/
structure RingBuffer (α : Type*) (n : ℕ) where
  slots : List (Option α)
  pointer : ℕ
  length_slots : slots.length = n
  pointer_lt : pointer < n

namespace RingBuffer

variable {α : Type*} {n : ℕ}

/-- The ring no value was written to. -/
def empty (α : Type*) (n : ℕ) (h : 0 < n) : RingBuffer α n where
  slots := List.replicate n none
  pointer := 0
  length_slots := List.length_replicate
  pointer_lt := h

/-- Write the slot under the pointer and move on. -/
def push (r : RingBuffer α n) (x : α) : RingBuffer α n where
  slots := r.slots.set r.pointer (some x)
  pointer := (r.pointer + 1) % n
  length_slots := by rw [List.length_set, r.length_slots]
  pointer_lt := Nat.mod_lt _ (Nat.lt_of_le_of_lt (Nat.zero_le _) r.pointer_lt)

/-- Push a value that is in no slot; the answer tells whether it was pushed. -/
def offer [DecidableEq α] (r : RingBuffer α n) (x : α) : RingBuffer α n × Bool :=
  if some x ∈ r.slots then (r, false) else (r.push x, true)

/-- The last `n` values of a list. -/
def window (n : ℕ) (granted : List α) : List α := granted.drop (granted.length - n)

/-- The slots hold the last `n` values of `granted`, value `p` in slot `p % n`. -/
structure Holds (r : RingBuffer α n) (granted : List α) : Prop where
  pointer_eq : r.pointer = granted.length % n
  filled : ∀ p x, granted[p]? = some x → granted.length ≤ p + n → r.slots[p % n]? = some (some x)
  unfilled : ∀ i, granted.length ≤ i → i < n → r.slots[i]? = some none

theorem holds_empty (h : 0 < n) : (empty α n h).Holds [] where
  pointer_eq := by simp [empty]
  filled := by simp
  unfilled := by
    intro i _ hi
    simp [empty, hi]

/-- Writing a slot appends to the window. -/
theorem holds_push {r : RingBuffer α n} {granted : List α} (h : r.Holds granted) (x : α) :
    (r.push x).Holds (granted ++ [x]) := by
  have hptr := h.pointer_eq
  have hn := r.pointer_lt
  have hlen : (granted ++ [x]).length = granted.length + 1 := by simp
  constructor
  · show (r.pointer + 1) % n = _
    rw [hptr, hlen, Nat.mod_add_mod]
  · intro p y hp hwin
    rw [hlen] at hwin
    have hplt : p < (granted ++ [x]).length := (List.getElem?_eq_some_iff.1 hp).1
    rw [hlen] at hplt
    rcases Nat.lt_or_ge p granted.length with hold | hnew
    · -- an older value of the window lies in another slot
      rw [List.getElem?_append_left hold] at hp
      have hne : r.pointer ≠ p % n := by
        rw [hptr]
        intro hmod
        have hdvd : n ∣ granted.length - p := (Nat.modEq_iff_dvd' (by omega)).1 hmod.symm
        have := Nat.le_of_dvd (by omega) hdvd
        omega
      rw [push, List.getElem?_set_ne hne]
      exact h.filled p y hp (by omega)
    · have hpeq : p = granted.length := by omega
      subst hpeq
      rw [List.getElem?_append_right (le_refl _)] at hp
      simp only [Nat.sub_self, List.getElem?_cons_zero, Option.some.injEq] at hp
      subst hp
      rw [push, ← hptr, List.getElem?_set_self]
      rw [r.length_slots]
      exact hn
  · intro i hi hin
    rw [hlen] at hi
    have hne : r.pointer ≠ i := by
      rw [hptr, Nat.mod_eq_of_lt (by omega)]
      omega
    rw [push, List.getElem?_set_ne hne]
    exact h.unfilled i (by omega) hin

/-- Searching the slots is searching the window. -/
theorem mem_slots_iff {r : RingBuffer α n} {granted : List α} (h : r.Holds granted) (x : α) :
    some x ∈ r.slots ↔ x ∈ window n granted := by
  have hn := r.pointer_lt
  constructor
  · intro hmem
    obtain ⟨i, hi, hx⟩ := List.getElem_of_mem hmem
    rw [r.length_slots] at hi
    have hslot : r.slots[i]? = some (some x) := List.getElem?_eq_some_iff.2 ⟨_, hx⟩
    rcases Nat.lt_or_ge i granted.length with hlt | hge
    · -- the value of slot `i` is the latest one whose index is `i` modulo `n`
      have hdiv := Nat.div_add_mod (granted.length - 1 - i) n
      have hmod := Nat.mod_lt (granted.length - 1 - i) (show 0 < n by omega)
      have hp : i + n * ((granted.length - 1 - i) / n) < granted.length := by omega
      have hwin : granted.length ≤ i + n * ((granted.length - 1 - i) / n) + n := by omega
      have hval := h.filled _ _ (List.getElem?_eq_getElem hp) hwin
      rw [Nat.add_mul_mod_self_left, Nat.mod_eq_of_lt hi, hslot] at hval
      have hx' : x = granted[i + n * ((granted.length - 1 - i) / n)] := by
        simpa using hval
      rw [window, hx']
      exact List.mem_drop_iff_getElem.2
        ⟨i + n * ((granted.length - 1 - i) / n) - (granted.length - n), by omega, by
          congr 1; omega⟩
    · rw [h.unfilled i hge hi] at hslot
      exact absurd hslot (by simp)
  · intro hmem
    obtain ⟨j, hj, hx⟩ := List.mem_drop_iff_getElem.1 hmem
    have hval := h.filled (granted.length - n + j) x
      (List.getElem?_eq_some_iff.2 ⟨by omega, hx⟩) (by omega)
    exact List.mem_of_getElem? hval

/-! ## Offers -/

variable [DecidableEq α]

/-- Let one more value through unless the window of those let through holds it. -/
def grant (n : ℕ) (granted : List α) (x : α) : List α :=
  if x ∈ window n granted then granted else granted ++ [x]

/-- The values let through, of a list of offered ones. -/
def granted (n : ℕ) (offered : List α) : List α := offered.foldl (grant n) []

theorem granted_append (n : ℕ) (offered : List α) (x : α) :
    granted n (offered ++ [x]) = grant n (granted n offered) x := by
  rw [granted, List.foldl_append]
  rfl

/-- An offer is refused exactly when the window holds the value. -/
theorem offer_eq {r : RingBuffer α n} {g : List α} (h : r.Holds g) (x : α) :
    r.offer x = if x ∈ window n g then (r, false) else (r.push x, true) := by
  rw [offer]
  by_cases hx : x ∈ window n g
  · rw [if_pos hx, if_pos ((mem_slots_iff h x).2 hx)]
  · rw [if_neg hx, if_neg (fun hc => hx ((mem_slots_iff h x).1 hc))]

/-- The ring after an offer holds what was let through. -/
theorem holds_offer {r : RingBuffer α n} {g : List α} (h : r.Holds g) (x : α) :
    (r.offer x).1.Holds (grant n g x) := by
  rw [offer_eq h, grant]
  by_cases hx : x ∈ window n g
  · rw [if_pos hx, if_pos hx]; exact h
  · rw [if_neg hx, if_neg hx]; exact holds_push h x

/-! ## What lies in the slots -/

omit [DecidableEq α] in
theorem length_window (n : ℕ) (g : List α) : (window n g).length = min g.length n := by
  rw [window, List.length_drop]
  omega

omit [DecidableEq α] in
/-- One more value moves the window on. -/
theorem window_append_eq_drop (n : ℕ) (g : List α) (x : α) :
    ∃ k, window n (g ++ [x]) = (window n g ++ [x]).drop k := by
  refine ⟨(g ++ [x]).length - n - (g.length - n), ?_⟩
  have hle : g.length - n ≤ g.length := Nat.sub_le _ _
  have hsplit : window n g ++ [x] = (g ++ [x]).drop (g.length - n) := by
    rw [window, List.drop_append_of_le_length hle]
  have hlen : (g ++ [x]).length = g.length + 1 := by simp
  have hsum : g.length - n + ((g ++ [x]).length - n - (g.length - n)) = (g ++ [x]).length - n := by
    omega
  rw [hsplit, List.drop_drop, hsum, window]

/-- The values of the window are pairwise different. -/
theorem nodup_window_grant {g : List α} (h : (window n g).Nodup) (x : α) :
    (window n (grant n g x)).Nodup := by
  rw [grant]
  split
  · exact h
  · rename_i hx
    obtain ⟨k, hk⟩ := window_append_eq_drop n g x
    rw [hk]
    have hcons : (window n g ++ [x]).Nodup := by
      rw [← List.concat_eq_append]
      exact h.concat hx
    exact hcons.sublist (List.drop_sublist _ _)

omit [DecidableEq α] in
/-- There are no more values in the slots than in the window. -/
theorem length_values_le {r : RingBuffer α n} {g : List α} (h : r.Holds g) :
    (r.slots.filterMap id).length ≤ (window n g).length := by
  have hunfilled : (r.slots.drop g.length).filterMap id = [] := by
    rw [List.filterMap_eq_nil_iff]
    intro slot hslot
    obtain ⟨j, hj, rfl⟩ := List.mem_drop_iff_getElem.1 hslot
    have hnone := h.unfilled (g.length + j) (by omega) (by rw [← r.length_slots]; omega)
    rw [List.getElem?_eq_getElem (by omega)] at hnone
    exact Option.some.inj hnone
  have hsplit : r.slots.filterMap id = (r.slots.take g.length).filterMap id := by
    rw [← List.append_nil ((r.slots.take g.length).filterMap id), ← hunfilled,
      ← List.filterMap_append, List.take_append_drop]
  rw [hsplit, length_window]
  refine (List.length_filterMap_le _ _).trans ?_
  rw [List.length_take, r.length_slots]

omit [DecidableEq α] in
/-- **The slots hold the window.**  Each value of a window without repetitions lies in one slot,
and the other slots are empty. -/
theorem slots_perm {r : RingBuffer α n} {g : List α} (h : r.Holds g) (hg : (window n g).Nodup) :
    (window n g).Perm (r.slots.filterMap id) := by
  have hsubset : window n g ⊆ r.slots.filterMap id := by
    intro x hx
    exact List.mem_filterMap.2 ⟨some x, (mem_slots_iff h x).2 hx, rfl⟩
  exact (hg.subperm hsubset).perm_of_length_le (length_values_le h)

end RingBuffer
