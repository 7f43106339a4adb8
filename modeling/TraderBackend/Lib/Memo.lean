import TraderBackend.Lib.OrdMap

/-!
# Remembered values of a function

A map that remembers what a function has answered, so as not to ask again.

* `Agrees` — every remembered value is the value of the function.
* `storeBounded` — store after emptying a map that has grown past a bound;
  `size_storeBounded_le` says how large the map can get.
-/

namespace OrdMap

variable {κ ν : Type*} [DecidableEq κ]

/-- What the map remembers is what the function says. -/
def Agrees (f : κ → ν) (m : OrdMap κ ν) : Prop := ∀ k v, m.get? k = some v → v = f k

theorem agrees_empty (f : κ → ν) : Agrees f (empty : OrdMap κ ν) := by
  intro k v h
  rw [get?_empty] at h
  cases h

/-- One more answer of the function. -/
theorem Agrees.set {f : κ → ν} {m : OrdMap κ ν} (h : Agrees f m) (k : κ) :
    Agrees f (m.set k (f k)) := by
  intro j w hw
  rcases get?_set_cases hw with ⟨rfl, rfl⟩ | hold
  · rfl
  · exact h j w hold

/-- A store adds one entry at most. -/
theorem size_set_le (m : OrdMap κ ν) (k : κ) (v : ν) : (m.set k v).size ≤ m.size + 1 := by
  have hkeys : ∀ n : OrdMap κ ν, n.size = n.keys.length := fun n => (List.length_map _).symm
  rw [hkeys, hkeys, keys_set]
  split
  · exact Nat.le_succ _
  · rw [List.length_append, List.length_singleton]

/-- Store a value; a map of more than `cap` entries is emptied first. -/
def storeBounded (cap : ℕ) (m : OrdMap κ ν) (k : κ) (v : ν) : OrdMap κ ν :=
  (if cap < m.size then empty else m).set k v

theorem Agrees.storeBounded {f : κ → ν} {m : OrdMap κ ν} (h : Agrees f m) (cap : ℕ) (k : κ) :
    Agrees f (m.storeBounded cap k (f k)) := by
  unfold OrdMap.storeBounded
  split
  · exact (agrees_empty f).set k
  · exact h.set k

/-- **The bound.**  However often it is stored into, the map has one entry more than the bound at
most. -/
theorem size_storeBounded_le (cap : ℕ) (m : OrdMap κ ν) (k : κ) (v : ν) :
    (m.storeBounded cap k v).size ≤ cap + 1 := by
  unfold OrdMap.storeBounded
  split
  · exact (size_set_le empty k v).trans (Nat.succ_le_succ (Nat.zero_le cap))
  · rename_i hle
    exact (size_set_le m k v).trans (Nat.succ_le_succ (not_lt.1 hle))

end OrdMap
