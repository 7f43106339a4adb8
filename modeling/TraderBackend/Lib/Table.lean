import TraderBackend.Lib.OrdMap

/-!
# Database tables

An ordered map read as a table with its primary key.

* **Atomic writes.**  `upsert` creates or updates the row of a key.
* **Looking first.**  `RecordCalls` are the calls of an insert that asks whether its
  row is there and then creates or updates it; `recordStep` makes them one at a
  time, so that other calls can fall in between.
* **Many upserts.**  `upsertAll` makes them one after another; `rows_upsertAll_iff` says when
  every item gets a row of its own.
* **What the rows hold.**  `Holds` looks at a part of the columns; where the row of a key can
  only hold one thing, the writes add that and lose nothing.
* **The newest row.**  `latest` is the greatest time stamp among the rows a query
  selects.
-/

namespace OrdMap

variable {K V : Type*} [DecidableEq K]

/-- Create the row of a key, or update it if it is there. -/
def upsert (t : OrdMap K V) (key : K) (create : V) (update : V → V) : OrdMap K V :=
  t.set key ((t.get? key).elim create update)

/-- Create the row of a key; if the key is taken the call fails and nothing happens. -/
def create (t : OrdMap K V) (key : K) (row : V) : OrdMap K V :=
  if (t.get? key).isSome then t else t.set key row

/-- Update the row of a key; without such a row the call fails and nothing happens. -/
def update (t : OrdMap K V) (key : K) (f : V → V) : OrdMap K V :=
  (t.get? key).elim t fun row => t.set key (f row)

theorem get?_upsert (t : OrdMap K V) (key j : K) (row : V) (f : V → V) :
    (t.upsert key row f).get? j =
      if key = j then some ((t.get? key).elim row f) else t.get? j := by
  show (t.set key _).get? j = _
  exact get?_set t key j _

theorem get?_create (t : OrdMap K V) (key j : K) (row : V) :
    (t.create key row).get? j = if key = j then some ((t.get? key).getD row) else t.get? j := by
  unfold create
  cases h : t.get? key with
  | none => simp [get?_set]
  | some old =>
    by_cases hkey : key = j
    · subst hkey; simp [h]
    · simp [hkey]

/-- A column that creation and update both fill with one value has it after an upsert. -/
theorem map_get?_upsert {α : Type*} (column : V → α) (t : OrdMap K V) (key : K) {row : V}
    {f : V → V} {a : α} (hcreate : column row = a) (hupdate : ∀ old, column (f old) = a) :
    ((t.upsert key row f).get? key).map column = some a := by
  rw [get?_upsert, if_pos rfl]
  cases t.get? key with
  | none => exact congrArg some hcreate
  | some old => exact congrArg some (hupdate old)

/-! ## Many upserts -/

/-- An upsert for every item of a list. -/
def upsertAll {ι : Type*} (key : ι → K) (create : ι → V) (update : ι → V → V) (t : OrdMap K V)
    (items : List ι) : OrdMap K V :=
  items.foldl (fun t i => t.upsert (key i) (create i) (update i)) t

section

variable {ι : Type*} {key : ι → K} {create : ι → V} {update : ι → V → V}

theorem mem_keys_upsertAll {t : OrdMap K V} {items : List ι} {j : K} :
    j ∈ (t.upsertAll key create update items).keys ↔ j ∈ t.keys ∨ j ∈ items.map key := by
  induction items generalizing t with
  | nil => simp [upsertAll]
  | cons i items ih =>
    have hnext := ih (t := t.upsert (key i) (create i) (update i))
    rw [upsert, mem_keys_set] at hnext
    rw [List.map_cons, List.mem_cons]
    refine hnext.trans ?_
    tauto

/-- Different keys: every item is created. -/
theorem entries_upsertAll_of_nodup {t : OrdMap K V} {items : List ι}
    (hnew : ∀ i ∈ items, key i ∉ t.keys) (hnodup : (items.map key).Nodup) :
    (t.upsertAll key create update items).entries =
      t.entries ++ items.map fun i => (key i, create i) := by
  induction items generalizing t with
  | nil => simp [upsertAll]
  | cons i items ih =>
    obtain ⟨hi, hrest⟩ := List.nodup_cons.1 hnodup
    have hnone : t.get? (key i) = none := get?_eq_none.2 (hnew i (List.mem_cons_self ..))
    have hnext : ∀ i' ∈ items, key i' ∉ (t.upsert (key i) (create i) (update i)).keys := by
      intro i' hi' hmem
      rcases mem_keys_set.1 hmem with heq | hold
      · exact hi (heq ▸ List.mem_map_of_mem hi')
      · exact hnew i' (List.mem_cons_of_mem _ hi') hold
    have hentries : (t.upsert (key i) (create i) (update i)).entries =
        t.entries ++ [(key i, create i)] := by
      rw [upsert, entries_set_of_none hnone, hnone]
      rfl
    have hall := ih hnext hrest
    rw [hentries, List.append_assoc] at hall
    exact hall

/-- Into an empty table every item gets the row it is created with, in order, exactly when their
keys are different. -/
theorem rows_upsertAll_iff {items : List ι} :
    (empty.upsertAll key create update items).entries.map Prod.snd = items.map create ↔
      (items.map key).Nodup := by
  constructor
  · intro hrows
    have hlength := congrArg List.length hrows
    have hsub : (empty.upsertAll key create update items).keys ⊆ items.map key := by
      intro j hj
      rcases mem_keys_upsertAll.1 hj with hempty | hmem
      · simp [keys, empty] at hempty
      · exact hmem
    have hnodup : (empty.upsertAll key create update items).keys.Nodup := nodup_keys _
    have hperm := (List.subperm_of_subset hnodup hsub).perm_of_length_le (by
      simp only [List.length_map, keys] at hlength ⊢
      omega)
    exact hperm.nodup_iff.1 hnodup
  · intro hnodup
    rw [entries_upsertAll_of_nodup (by simp [keys, empty]) hnodup]
    simp [empty, Function.comp_def]

end

/-! ## What the rows hold -/

section

variable {W : Type*}

/-- The row of a key holds `x`, as far as `content` looks at it. -/
def Holds (t : OrdMap K V) (content : V → W) (key : K) (x : W) : Prop :=
  (t.get? key).map content = some x

variable {t : OrdMap K V} {content : V → W} {key j : K} {row : V} {x y : W}

theorem holds_iff : t.Holds content key x ↔ ∃ row, t.get? key = some row ∧ content row = x :=
  Option.map_eq_some_iff

/-- If a row can only hold one thing, it holds it as soon as it is there. -/
theorem Holds.of_isSome (hown : ∀ y, t.Holds content key y → y = x) (h : (t.get? key).isSome) :
    t.Holds content key x := by
  obtain ⟨row, hrow⟩ := Option.isSome_iff_exists.1 h
  have hrow' : t.Holds content key (content row) := holds_iff.2 ⟨row, hrow, rfl⟩
  rwa [hown _ hrow'] at hrow'

/-- A row is written that holds what the one it replaces holds. -/
theorem holds_set_of_some {old : V} (hold : t.get? key = some old)
    (hsame : content row = content old) :
    (t.set key row).Holds content j y ↔ t.Holds content j y := by
  unfold Holds
  rw [get?_set]
  split
  · rename_i hkey
    subst hkey
    rw [hold, Option.map_some, Option.map_some, hsame]
  · rfl

/-- A row is written where there was none. -/
theorem holds_set_of_none (hnone : t.get? key = none) :
    (t.set key row).Holds content j y ↔ t.Holds content j y ∨ (key = j ∧ content row = y) := by
  unfold Holds
  rw [get?_set]
  split
  · rename_i hkey
    subst hkey
    simp [hnone]
  · rename_i hkey
    simp [hkey]

/-- An upsert, where the row of the key can only hold what is created and an update leaves that
alone. -/
theorem holds_upsert {f : V → V} (hown : ∀ y, t.Holds content key y → y = content row)
    (hf : ∀ old, content old = content row → content (f old) = content row) :
    (t.upsert key row f).Holds content j y ↔ t.Holds content j y ∨ (key = j ∧ content row = y) := by
  unfold upsert
  cases hold : t.get? key with
  | none => exact holds_set_of_none hold
  | some old =>
    have hrow : t.Holds content key (content old) := holds_iff.2 ⟨old, hold, rfl⟩
    have hsame := hown _ hrow
    rw [Option.elim_some, holds_set_of_some hold ((hf old hsame).trans hsame.symm)]
    refine (or_iff_left_of_imp ?_).symm
    rintro ⟨rfl, rfl⟩
    rwa [hsame] at hrow

/-- A creation, where the row of the key can only hold what is created. -/
theorem holds_create (hown : ∀ y, t.Holds content key y → y = content row) :
    (t.create key row).Holds content j y ↔ t.Holds content j y ∨ (key = j ∧ content row = y) := by
  unfold create
  split
  · rename_i hsome
    refine (or_iff_left_of_imp ?_).symm
    rintro ⟨rfl, rfl⟩
    exact .of_isSome hown hsome
  · rename_i hnone
    exact holds_set_of_none (by simpa using hnone)

/-- An update that leaves alone what the row holds. -/
theorem holds_update {f : V → V}
    (hf : ∀ old, t.get? key = some old → content (f old) = content old) :
    (t.update key f).Holds content j y ↔ t.Holds content j y := by
  unfold update
  cases hold : t.get? key with
  | none => rfl
  | some old => exact holds_set_of_some hold (hf old hold)

end

/-! ## The newest row -/

/-- The greatest stamp among the rows that have one. -/
def latest (t : OrdMap K V) (stamp : V → Option ℕ) : Option ℕ :=
  (t.entries.filterMap fun e => stamp e.2).max?

theorem latest_eq_some {t : OrdMap K V} {stamp : V → Option ℕ} {time : ℕ}
    (h : t.latest stamp = some time) :
    ∃ key row, t.get? key = some row ∧ stamp row = some time := by
  obtain ⟨⟨key, row⟩, hmem, hstamp⟩ := List.mem_filterMap.1 (List.max?_mem h)
  exact ⟨key, row, get?_eq_some.2 hmem, hstamp⟩

end OrdMap

/-! ## Looking first -/

/-- The database calls of an insert that looks first. -/
structure RecordCalls (σ : Type*) where
  find : σ → Bool
  create : σ → σ
  update : σ → σ

/-- Where such an insert stands: before its next call. -/
inductive RecordAt where
  | find
  | write (exist : Bool)
  | done
  deriving DecidableEq

variable {σ : Type*}

/-- The insert without interruption. -/
def RecordCalls.insert (calls : RecordCalls σ) (s : σ) : σ :=
  if calls.find s then calls.update s else calls.create s

/-- The next call. -/
def recordStep (calls : RecordCalls σ) (s : σ) : RecordAt → Option (σ × RecordAt)
  | .find => some (s, .write (calls.find s))
  | .write exist => some (if exist then calls.update s else calls.create s, .done)
  | .done => none

/-- What a call can do: look, or write as was seen. -/
theorem recordStep_cases {calls : RecordCalls σ} {s s' : σ} {l l' : RecordAt}
    (h : recordStep calls s l = some (s', l')) :
    (l = .find ∧ s' = s ∧ l' = .write (calls.find s)) ∨
      (l = .write true ∧ s' = calls.update s ∧ l' = .done) ∨
      (l = .write false ∧ s' = calls.create s ∧ l' = .done) := by
  cases l with
  | find => cases h; exact Or.inl ⟨rfl, rfl, rfl⟩
  | write exist =>
    cases exist with
    | true => cases h; exact Or.inr (Or.inl ⟨rfl, rfl, rfl⟩)
    | false => cases h; exact Or.inr (Or.inr ⟨rfl, rfl, rfl⟩)
  | done => cases h
