import TraderBackend.Lib.Table

/-!
# Journals

A journal keeps the first of the items that conflict and drops the others.  A table
whose insert looks for a row before it creates one is such a journal of the items
delivered to it.

* `keep`, `keepFirst` — one item, a sequence of items.
* `mem_keepFirst_iff` — when two items conflict if their keys are equal, the kept ones
  are the first of their key.
* `OrdMap.view` — the columns of a table that are never rewritten, row by row.
* `view_foldl`, `view_foldl_sameKey` — a table filled by a sequence of deliveries shows
  the journal of them.
* `balance`, `balance_eq_iff` — the rows of every account add up to all items of that
  account if and only if the dropped ones add up to nothing.
-/

variable {ι κ α : Type*}

/-! ## Items -/

/-- Keep an item unless it conflicts with one kept before. -/
def keep (conflict : ι → ι → Bool) (kept : List ι) (i : ι) : List ι :=
  if kept.any fun j => conflict j i then kept else kept ++ [i]

/-- Of a sequence of items, those that conflict with none kept before. -/
def keepFirst (conflict : ι → ι → Bool) (items : List ι) : List ι :=
  items.foldl (keep conflict) []

theorem keepFirst_concat (conflict : ι → ι → Bool) (items : List ι) (i : ι) :
    keepFirst conflict (items ++ [i]) = keep conflict (keepFirst conflict items) i := by
  simp [keepFirst]

/-- What keeping one more item can do. -/
theorem keep_cases (conflict : ι → ι → Bool) (kept : List ι) (i : ι) :
    ((∃ j ∈ kept, conflict j i = true) ∧ keep conflict kept i = kept) ∨
      ((∀ j ∈ kept, conflict j i = false) ∧ keep conflict kept i = kept ++ [i]) := by
  by_cases h : kept.any fun j => conflict j i
  · exact Or.inl ⟨List.any_eq_true.1 h, if_pos h⟩
  · refine Or.inr ⟨?_, if_neg h⟩
    simpa using h

/-- An item outside a class changes nothing in the class. -/
theorem filter_keep_of_neg {p : ι → Bool} {i : ι} (hi : p i = false) (conflict : ι → ι → Bool)
    (kept : List ι) : (keep conflict kept i).filter p = kept.filter p := by
  rcases keep_cases conflict kept i with ⟨-, h⟩ | ⟨-, h⟩
  · rw [h]
  · rw [h, List.filter_append]
    simp [hi]

/-- A class that no conflict leaves has a journal of its own. -/
theorem filter_keep_of_pos {p : ι → Bool} {i : ι} (hi : p i = true) {conflict : ι → ι → Bool}
    (hclass : ∀ j, conflict j i = true → p j = true) (kept : List ι) :
    (keep conflict kept i).filter p = keep conflict (kept.filter p) i := by
  rcases keep_cases conflict kept i with ⟨⟨j, hj, hconflict⟩, h⟩ | ⟨hno, h⟩
  · have hin : j ∈ kept.filter p := List.mem_filter.2 ⟨hj, hclass j hconflict⟩
    rw [h, keep, if_pos (List.any_eq_true.2 ⟨j, hin, hconflict⟩)]
  · have hnone : ¬ (kept.filter p).any (fun j => conflict j i) = true := by
      rw [List.any_eq_true]
      rintro ⟨j, hj, hconflict⟩
      rw [hno j (List.mem_filter.1 hj).1] at hconflict
      cases hconflict
    rw [h, List.filter_append, keep, if_neg hnone]
    simp [hi]

theorem keepFirst_subset (conflict : ι → ι → Bool) (items : List ι) :
    keepFirst conflict items ⊆ items := by
  induction items using List.reverseRecOn with
  | nil => exact List.Subset.refl []
  | append_singleton items i ih =>
    rw [keepFirst_concat]
    rcases keep_cases conflict (keepFirst conflict items) i with ⟨-, h⟩ | ⟨-, h⟩
    · rw [h]
      exact List.subset_append_of_subset_left [i] ih
    · rw [h]
      exact List.append_subset.2 ⟨List.subset_append_of_subset_left [i] ih,
        List.subset_append_right items [i]⟩

/-- The kept items do not conflict. -/
theorem keepFirst_pairwise (conflict : ι → ι → Bool) (items : List ι) :
    (keepFirst conflict items).Pairwise fun i j => conflict i j = false := by
  induction items using List.reverseRecOn with
  | nil => exact List.Pairwise.nil
  | append_singleton items i ih =>
    rw [keepFirst_concat]
    rcases keep_cases conflict (keepFirst conflict items) i with ⟨-, h⟩ | ⟨hno, h⟩
    · rw [h]
      exact ih
    · rw [h, List.pairwise_append]
      refine ⟨ih, List.pairwise_singleton _ i, ?_⟩
      intro j hj k hk
      rw [List.mem_singleton.1 hk]
      exact hno j hj

/-- Where every item conflicts with itself, none is kept twice. -/
theorem keepFirst_nodup {conflict : ι → ι → Bool} (hself : ∀ i, conflict i i = true)
    (items : List ι) : (keepFirst conflict items).Nodup := by
  apply (keepFirst_pairwise conflict items).imp
  rintro i j hij rfl
  rw [hself i] at hij
  cases hij

/-- Where no two items conflict, all are kept. -/
theorem keepFirst_eq_self {conflict : ι → ι → Bool} {items : List ι}
    (h : items.Pairwise fun i j => conflict i j = false) : keepFirst conflict items = items := by
  induction items using List.reverseRecOn with
  | nil => rfl
  | append_singleton items i ih =>
    obtain ⟨hitems, -, hlast⟩ := List.pairwise_append.1 h
    rw [keepFirst_concat, ih hitems]
    rcases keep_cases conflict items i with ⟨⟨j, hj, hconflict⟩, -⟩ | ⟨-, hkeep⟩
    · rw [hlast j hj i (List.mem_singleton_self i)] at hconflict
      cases hconflict
    · exact hkeep

variable [DecidableEq κ]

/-- The conflict of items with equal keys. -/
def sameKey (key : ι → κ) (i j : ι) : Bool := decide (key i = key j)

theorem sameKey_self (key : ι → κ) (i : ι) : sameKey key i i = true := by
  simp [sameKey]

/-- Items with different keys are all kept. -/
theorem keepFirst_sameKey {key : ι → κ} {items : List ι} (h : (items.map key).Nodup) :
    keepFirst (sameKey key) items = items :=
  keepFirst_eq_self ((List.pairwise_map.1 h).imp fun hne => decide_eq_false hne)

/-- A key of the sequence is the key of a kept item. -/
theorem exists_keepFirst (key : ι → κ) {items : List ι} {i : ι} (hi : i ∈ items) :
    ∃ j ∈ keepFirst (sameKey key) items, key j = key i := by
  induction items using List.reverseRecOn with
  | nil => cases hi
  | append_singleton items b ih =>
    rw [keepFirst_concat]
    have hold : ∀ j ∈ keepFirst (sameKey key) items,
        j ∈ keep (sameKey key) (keepFirst (sameKey key) items) b := by
      intro j hj
      rcases keep_cases (sameKey key) (keepFirst (sameKey key) items) b with ⟨-, h⟩ | ⟨-, h⟩
      · rwa [h]
      · rw [h]
        exact List.mem_append_left [b] hj
    rcases List.mem_append.1 hi with hi | hi
    · obtain ⟨j, hj, hkey⟩ := ih hi
      exact ⟨j, hold j hj, hkey⟩
    · rw [List.mem_singleton.1 hi]
      rcases keep_cases (sameKey key) (keepFirst (sameKey key) items) b with
        ⟨⟨j, hj, hkey⟩, -⟩ | ⟨-, h⟩
      · exact ⟨j, hold j hj, of_decide_eq_true hkey⟩
      · rw [h]
        exact ⟨b, List.mem_append_right _ (List.mem_singleton_self b), rfl⟩

/-- The kept items are those that come first among the items of their key. -/
theorem mem_keepFirst_iff (key : ι → κ) (items : List ι) (i : ι) :
    i ∈ keepFirst (sameKey key) items ↔
      items.find? (fun j => decide (key j = key i)) = some i := by
  induction items using List.reverseRecOn with
  | nil => simp [keepFirst]
  | append_singleton items b ih =>
    rw [keepFirst_concat, List.find?_append]
    rcases keep_cases (sameKey key) (keepFirst (sameKey key) items) b with
      ⟨⟨j, hj, hkey⟩, h⟩ | ⟨hno, h⟩
    · have hkey : key j = key b := of_decide_eq_true hkey
      have hfound : (items.find? fun j => decide (key j = key i)) = none → key b ≠ key i := by
        intro hnone hb
        have := List.find?_eq_none.1 hnone j (keepFirst_subset _ items hj)
        simp [hkey, hb] at this
      rw [h, ih]
      cases hfind : items.find? fun j => decide (key j = key i) with
      | some j' => simp
      | none => simp [hfound hfind]
    · have hother : ∀ j ∈ items, key j ≠ key b := by
        intro j hj hkey
        obtain ⟨k, hk, hkey'⟩ := exists_keepFirst key hj
        have := hno k hk
        simp [sameKey, hkey', hkey] at this
      rw [h, List.mem_append, ih, List.mem_singleton]
      by_cases hi : i = b
      · subst hi
        have hnone : items.find? (fun j => decide (key j = key i)) = none := by
          rw [List.find?_eq_none]
          intro j hj
          simpa using hother j hj
        simp [hnone]
      · cases hfind : items.find? fun j => decide (key j = key i) with
        | some j' => simp [hi]
        | none =>
          have hne : ∀ c, [b].find? (fun j => decide (key j = key i)) = some c → c = b := by
            intro c hc
            exact List.mem_singleton.1 (List.mem_of_find?_eq_some hc)
          constructor
          · rintro (h | h)
            · cases h
            · exact absurd h hi
          · intro h
            exact absurd (hne i (by simpa using h)) hi

/-! ## Tables -/

namespace OrdMap

variable {K V A : Type*} [DecidableEq K]

/-- The rows as a function of key and row shows them, oldest first. -/
def view (g : K → V → A) (t : OrdMap K V) : List A := t.entries.map fun e => g e.1 e.2

theorem mem_view {g : K → V → A} {t : OrdMap K V} {a : A} :
    a ∈ t.view g ↔ ∃ key row, t.get? key = some row ∧ g key row = a := by
  rw [view, List.mem_map]
  constructor
  · rintro ⟨⟨key, row⟩, hmem, h⟩
    exact ⟨key, row, get?_eq_some.2 hmem, h⟩
  · rintro ⟨key, row, hget, h⟩
    exact ⟨(key, row), get?_eq_some.1 hget, h⟩

/-- A new key is shown last. -/
theorem view_set_of_none {g : K → V → A} {t : OrdMap K V} {key : K} {row : V}
    (h : t.get? key = none) : (t.set key row).view g = t.view g ++ [g key row] := by
  rw [view, entries_set_of_none h, List.map_append]
  rfl

/-- Rewriting a row in columns that are not shown is not seen. -/
theorem view_set_of_some {g : K → V → A} {t : OrdMap K V} {key : K} {row old : V}
    (h : t.get? key = some old) (hg : g key row = g key old) :
    (t.set key row).view g = t.view g := by
  have hlist : ∀ es : List (K × V), lookupL key es = some old →
      (setL key row es).map (fun e => g e.1 e.2) = es.map fun e => g e.1 e.2 := by
    intro es
    induction es with
    | nil => intro h; cases h
    | cons e es ih =>
      obtain ⟨a, w⟩ := e
      intro h
      rw [lookupL] at h
      rw [setL]
      by_cases ha : a = key
      · rw [if_pos ha] at h ⊢
        cases h
        subst ha
        simp [hg]
      · rw [if_neg ha] at h ⊢
        simp [ih h]
  exact hlist t.entries h

theorem view_create_of_none {g : K → V → A} {t : OrdMap K V} {key : K} {row : V}
    (h : t.get? key = none) : (t.create key row).view g = t.view g ++ [g key row] := by
  rw [create, h]
  exact view_set_of_none h

theorem view_upsert_of_none {g : K → V → A} {t : OrdMap K V} {key : K} {row : V} {f : V → V}
    (h : t.get? key = none) : (t.upsert key row f).view g = t.view g ++ [g key row] := by
  rw [upsert, h]
  exact view_set_of_none h

theorem view_upsert_of_some {g : K → V → A} {t : OrdMap K V} {key : K} {row old : V} {f : V → V}
    (h : t.get? key = some old) (hg : g key (f old) = g key old) :
    (t.upsert key row f).view g = t.view g := by
  rw [upsert, h]
  exact view_set_of_some h hg

/-- An update in columns that are not shown is not seen. -/
theorem view_update {g : K → V → A} {key : K} {f : V → V} (hg : ∀ row, g key (f row) = g key row)
    (t : OrdMap K V) : (t.update key f).view g = t.view g := by
  unfold update
  cases hget : t.get? key with
  | none => rfl
  | some row => exact view_set_of_some hget (hg row)

/-- The columns with the key in front. -/
def keyed (g : K → V → A) (key : K) (row : V) : K × A := (key, g key row)

/-- A key is free when the rows show it nowhere. -/
theorem get?_eq_none_iff_view {g : K → V → A} {t : OrdMap K V} {key : K} :
    t.get? key = none ↔ ∀ c ∈ t.view (keyed g), c.1 ≠ key := by
  constructor
  · rintro hnone c hc rfl
    obtain ⟨key, row, hget, rfl⟩ := mem_view.1 hc
    rw [show t.get? key = none from hnone] at hget
    cases hget
  · intro h
    cases hget : t.get? key with
    | none => rfl
    | some row => exact absurd rfl (h _ (mem_view.2 ⟨key, row, hget, rfl⟩))

end OrdMap

/-- **The journal of a table.**  If an insert of a kind of item is not seen, and one of the
other kind is seen as the journal keeps it, then a table filled by deliveries shows what the
journal keeps of the items delivered. -/
theorem view_foldl {T δ A : Type*} {view : T → List A} {shown : ι → A} {item : δ → ι}
    {storable : ι → Bool} {conflict : ι → ι → Bool} {insert : T → δ → T}
    (hskip : ∀ t d, storable (item d) = false → view (insert t d) = view t)
    (hkeep : ∀ t d kept, storable (item d) = true → view t = kept.map shown →
      view (insert t d) = (keep conflict kept (item d)).map shown)
    {t : T} (hempty : view t = []) (deliveries : List δ) :
    view (deliveries.foldl insert t) =
      (keepFirst conflict ((deliveries.map item).filter storable)).map shown := by
  induction deliveries using List.reverseRecOn with
  | nil => exact hempty
  | append_singleton deliveries d ih =>
    rw [List.foldl_append, List.map_append, List.filter_append]
    show view (insert (deliveries.foldl insert t) d) = _
    cases hd : storable (item d) with
    | false =>
      rw [hskip _ d hd, ih]
      simp [hd]
    | true =>
      rw [hkeep _ d _ hd ih, ← keepFirst_concat]
      simp [hd]

/-- **The journal of a table that goes by its key.**  An insert is not seen where the key is
taken, and adds its row where the key is free. -/
theorem view_foldl_sameKey {K V A δ : Type*} [DecidableEq K] {g : K → V → A} {key : ι → K}
    {shown : ι → A} {item : δ → ι} {storable : ι → Bool} {insert : OrdMap K V → δ → OrdMap K V}
    (hskip : ∀ t d, storable (item d) = false → insert t d = t)
    (hold : ∀ t d row, storable (item d) = true → t.get? (key (item d)) = some row →
      (insert t d).view (OrdMap.keyed g) = t.view (OrdMap.keyed g))
    (hnew : ∀ t d, storable (item d) = true → t.get? (key (item d)) = none →
      (insert t d).view (OrdMap.keyed g) =
        t.view (OrdMap.keyed g) ++ [(key (item d), shown (item d))])
    (deliveries : List δ) :
    (deliveries.foldl insert OrdMap.empty).view (OrdMap.keyed g) =
      (keepFirst (sameKey key) ((deliveries.map item).filter storable)).map
        fun i => (key i, shown i) := by
  apply view_foldl
  · intro t d hd
    rw [hskip t d hd]
  · intro t d kept hd hview
    rcases keep_cases (sameKey key) kept (item d) with ⟨⟨j, hj, hkey⟩, h⟩ | ⟨hno, h⟩
    · rw [h, ← hview]
      cases hget : t.get? (key (item d)) with
      | some row => exact hold t d row hd hget
      | none =>
        have hfree := OrdMap.get?_eq_none_iff_view.1 hget _ (hview ▸ List.mem_map_of_mem hj)
        exact absurd (of_decide_eq_true hkey) hfree
    · rw [h, List.map_append, ← hview]
      apply hnew t d hd
      rw [OrdMap.get?_eq_none_iff_view, hview]
      intro c hc hkey
      obtain ⟨j, hj, rfl⟩ := List.mem_map.1 hc
      exact of_decide_eq_false (hno j hj) hkey
  · rfl

/-! ## Sums -/

variable [DecidableEq α]

/-- The sum of the amounts booked on an account. -/
def balance (bookings : List (α × ℤ)) (account : α) : ℤ :=
  ((bookings.filter fun b => decide (b.1 = account)).map Prod.snd).sum

/-- A sum over the rows of an account is a balance of what the rows show. -/
theorem sum_eq_balance {K V A : Type*} {t : OrdMap K V} {g : K → V → A} {account : A → α}
    {amount : A → ℤ} {a : α} {selected : K × V → Bool} {value : K × V → ℤ}
    (hselected : ∀ e, selected e = decide (account (g e.1 e.2) = a))
    (hvalue : ∀ e, value e = amount (g e.1 e.2)) :
    ((t.entries.filter selected).map value).sum =
      balance ((t.view g).map fun c => (account c, amount c)) a := by
  rw [balance, OrdMap.view, List.map_map, List.filter_map, List.map_map, funext hselected,
    funext hvalue]
  rfl

variable [Fintype ι] [DecidableEq ι]

/-- The balance of a list of different items. -/
theorem balance_map {items : List ι} (hnodup : items.Nodup) (account : ι → α) (amount : ι → ℤ)
    (a : α) :
    balance (items.map fun i => (account i, amount i)) a =
      ∑ i with account i = a ∧ i ∈ items, amount i := by
  have hset : (Finset.univ.filter fun i => account i = a ∧ i ∈ items) =
      (items.filter fun i => decide (account i = a)).toFinset := by
    ext i
    simp [and_comm]
  rw [hset, List.sum_toFinset amount (hnodup.filter _), balance, List.filter_map, List.map_map]
  rfl

/-- **When a journal keeps the books.**  The balances of the kept items are those of all items,
on every account, if and only if the items that are not kept add up to nothing there. -/
theorem balance_eq_iff {items : List ι} (hnodup : items.Nodup) (account : ι → α)
    (amount : ι → ℤ) :
    (∀ a, balance (items.map fun i => (account i, amount i)) a =
        ∑ i with account i = a, amount i) ↔
      ∀ a, ∑ i with account i = a ∧ i ∉ items, amount i = 0 := by
  apply forall_congr'
  intro a
  have hsplit : (∑ i with account i = a, amount i) =
      (∑ i with account i = a ∧ i ∈ items, amount i) +
        ∑ i with account i = a ∧ i ∉ items, amount i := by
    rw [← Finset.sum_filter_add_sum_filter_not (Finset.univ.filter fun i => account i = a)
      (fun i => i ∈ items), Finset.filter_filter, Finset.filter_filter]
  rw [balance_map hnodup account amount a, hsplit]
  exact left_eq_add

/-- The same for accounts with two parts, the kept items being known by a predicate. -/
theorem sums_eq_iff {β γ : Type*} [DecidableEq β] [DecidableEq γ] {items : List ι}
    (hnodup : items.Nodup) {left : ι → β} {right : ι → γ} {amount : ι → ℤ} {sum : β → γ → ℤ}
    (hsum : ∀ b c, sum b c =
      balance (items.map fun i => ((left i, right i), amount i)) (b, c))
    {Kept : ι → Prop} [DecidablePred Kept] (hkept : ∀ i, i ∈ items ↔ Kept i) :
    (∀ b c, sum b c = ∑ i with left i = b ∧ right i = c, amount i) ↔
      ∀ b c, ∑ i with left i = b ∧ right i = c ∧ ¬ Kept i, amount i = 0 := by
  have hbalance := balance_eq_iff hnodup (fun i => (left i, right i)) amount
  simp only [Prod.forall, Prod.mk.injEq, and_assoc, hkept] at hbalance
  simp only [hsum]
  exact hbalance
