import Mathlib

/-!
# Joins

Rows joined with the rows that match them, as a database joins: once for every match.

* `innerJoin`, `leftJoin` — a row without a match is dropped, or kept without one.
* `innerJoin_eq_map` — where every row has one match, a join adds a column.
* `leftJoin_eq_map` — where no row has two matches, so does a left join.
* `groupTotals` — one row for every group with the total of the group; a left join with it
  has no two matches (`leftJoin_groupTotals`).
-/

variable {α β κ : Type*}

/-- `JOIN`. -/
def innerJoin (rows : List α) (found : α → List β) : List (α × β) :=
  rows.flatMap fun a => (found a).map fun b => (a, b)

/-- `LEFT JOIN`. -/
def leftJoin (rows : List α) (found : α → List β) : List (α × Option β) :=
  rows.flatMap fun a => if found a = [] then [(a, none)] else (found a).map fun b => (a, some b)

/-- **A join with one match each** adds a column. -/
theorem innerJoin_eq_map {rows : List α} {found : α → List β} {f : α → β}
    (h : ∀ a ∈ rows, found a = [f a]) : innerJoin rows found = rows.map fun a => (a, f a) := by
  have hrow : ∀ a ∈ rows, ((found a).map fun b => (a, b)) = [(a, f a)] := fun a ha => by
    rw [h a ha]
    rfl
  rw [innerJoin, List.flatMap_congr hrow, ← List.map_eq_flatMap]

/-- **A left join with one match at most** adds a column. -/
theorem leftJoin_eq_map {rows : List α} {found : α → List β} {f : α → Option β}
    (h : ∀ a ∈ rows, found a = (f a).toList) :
    leftJoin rows found = rows.map fun a => (a, f a) := by
  have hrow : ∀ a ∈ rows, (if found a = [] then [(a, none)]
      else (found a).map fun b => (a, some b)) = [(a, f a)] := fun a ha => by
    rw [h a ha]
    cases f a with
    | none => rfl
    | some b => rfl
  rw [leftJoin, List.flatMap_congr hrow, ← List.map_eq_flatMap]

/-! ## Groups -/

section

variable [DecidableEq κ] {M : Type*} [AddCommMonoid M] (key : α → κ) (amount : α → M)

/-- The total of a group. -/
def groupTotal (rows : List α) (k : κ) : M :=
  ((rows.filter fun a => decide (key a = k)).map amount).sum

/-- `SELECT key, SUM(amount) … GROUP BY key`. -/
def groupTotals (rows : List α) : List (κ × M) :=
  ((rows.map key).dedup).map fun k => (k, groupTotal key amount rows k)

/-- The groups that a row is joined with. -/
def groupsOf (rows : List α) (k : κ) : List M :=
  ((groupTotals key amount rows).filter fun g => decide (g.1 = k)).map Prod.snd

theorem filter_eq_of_nodup {l : List κ} (h : l.Nodup) (k : κ) :
    (l.filter fun j => decide (j = k)) = if k ∈ l then [k] else [] := by
  rw [List.filter_eq, h.count]
  split <;> rfl

/-- A key has one group, or none. -/
theorem groupsOf_eq (rows : List α) (k : κ) :
    groupsOf key amount rows k =
      (if k ∈ rows.map key then some (groupTotal key amount rows k) else none).toList := by
  have hfilter : (groupTotals key amount rows).filter (fun g => decide (g.1 = k)) =
      (((rows.map key).dedup).filter fun j => decide (j = k)).map
        fun j => (j, groupTotal key amount rows j) := by
    rw [groupTotals, List.filter_map]
    rfl
  rw [groupsOf, hfilter, filter_eq_of_nodup (List.nodup_dedup _)]
  simp only [List.mem_dedup]
  split <;> rfl

/-- **A left join with totals** gives every row the total of its key. -/
theorem leftJoin_groupTotals {γ : Type*} (rows : List γ) (other : γ → κ) (grouped : List α) :
    leftJoin rows (fun c => groupsOf key amount grouped (other c)) =
      rows.map fun c => (c, if other c ∈ grouped.map key then
        some (groupTotal key amount grouped (other c)) else none) :=
  leftJoin_eq_map fun _ _ => groupsOf_eq key amount grouped _

theorem groupTotal_eq_zero {rows : List α} {k : κ} (h : k ∉ rows.map key) :
    groupTotal key amount rows k = 0 := by
  have hnone : (rows.filter fun a => decide (key a = k)) = [] := by
    rw [List.filter_eq_nil_iff]
    intro a ha hkey
    exact h (List.mem_map.2 ⟨a, ha, of_decide_eq_true hkey⟩)
  rw [groupTotal, hnone]
  rfl

end
