import Mathlib

/-!
# Maxima of buckets

Samples at natural times fall into buckets of one length, counted from time zero.  A
range query gives the maximum of every bucket that has samples, in the order of the
buckets.

* `bucketMaxima` — the query.
* `getLast?_bucketMaxima` — its last entry is the maximum of the bucket with the latest
  sample.
* `isGreatest_iff_of_isGreatest` — when a maximum is that of another set, too.
-/

variable {α : Type*}

/-- The numbers of the buckets that have samples, in order. -/
def bucketsOf (length : ℕ) (samples : List (ℕ × α)) : List ℕ :=
  (samples.map fun s => s.1 / length).dedup.insertionSort (· ≤ ·)

/-- The values in a bucket. -/
def bucketValues (length : ℕ) (samples : List (ℕ × α)) (k : ℕ) : List α :=
  (samples.filter fun s => decide (s.1 / length = k)).map Prod.snd

/-- The start and the maximum of every bucket that has samples, in order. -/
def bucketMaxima [LinearOrder α] (length : ℕ) (samples : List (ℕ × α)) : List (ℕ × α) :=
  (bucketsOf length samples).filterMap fun k =>
    (bucketValues length samples k).max?.map fun m => (k * length, m)

section

variable {length : ℕ} {samples : List (ℕ × α)}

theorem mem_bucketsOf {k : ℕ} : k ∈ bucketsOf length samples ↔ ∃ s ∈ samples, s.1 / length = k := by
  rw [bucketsOf, List.mem_insertionSort, List.mem_dedup, List.mem_map]

theorem mem_bucketValues {k : ℕ} {v : α} :
    v ∈ bucketValues length samples k ↔ ∃ s ∈ samples, s.1 / length = k ∧ s.2 = v := by
  simp only [bucketValues, List.mem_map, List.mem_filter, decide_eq_true_eq, and_assoc]

variable [LinearOrder α]

/-- The maximum of some values. -/
theorem isGreatest_max? {l : List α} {m : α} (h : l.max? = some m) :
    IsGreatest {v | v ∈ l} m := by
  obtain ⟨hmem, hle⟩ := List.max?_eq_some_iff.1 h
  exact ⟨hmem, fun v hv => hle v hv⟩

omit [LinearOrder α] in
/-- The last bucket is that of the latest sample. -/
theorem bucketsOf_eq_append (length : ℕ) {latest : ℕ × α} (hmem : latest ∈ samples)
    (hlatest : ∀ s ∈ samples, s.1 ≤ latest.1) :
    ∃ init, bucketsOf length samples = init ++ [latest.1 / length] := by
  have hk : latest.1 / length ∈ bucketsOf length samples := mem_bucketsOf.2 ⟨latest, hmem, rfl⟩
  have hsorted : (bucketsOf length samples).Pairwise (· ≤ ·) := List.pairwise_insertionSort _ _
  obtain ⟨init, K, hlist⟩ : ∃ init K, bucketsOf length samples = init ++ [K] :=
    ⟨_, _, (List.dropLast_append_getLast (List.ne_nil_of_mem hk)).symm⟩
  have hmemK : K ∈ bucketsOf length samples := by
    rw [hlist]
    exact List.mem_append_right _ (List.mem_singleton_self K)
  obtain ⟨s, hs, rfl⟩ := mem_bucketsOf.1 hmemK
  refine ⟨init, ?_⟩
  rw [hlist] at hk hsorted ⊢
  rw [le_antisymm (Nat.div_le_div_right (hlatest s hs)) ?_]
  rcases List.mem_append.1 hk with hinit | hself
  · exact (List.pairwise_append.1 hsorted).2.2 _ hinit _ (List.mem_singleton_self _)
  · exact (List.mem_singleton.1 hself).le

/-- **The last entry.**  It is the maximum of the bucket of the latest sample. -/
theorem getLast?_bucketMaxima (length : ℕ) {latest : ℕ × α} (hmem : latest ∈ samples)
    (hlatest : ∀ s ∈ samples, s.1 ≤ latest.1) :
    ∃ m, (bucketMaxima length samples).getLast? = some (latest.1 / length * length, m) ∧
      IsGreatest {v | ∃ s ∈ samples, s.1 / length = latest.1 / length ∧ s.2 = v} m := by
  obtain ⟨init, hlist⟩ := bucketsOf_eq_append length hmem hlatest
  obtain ⟨m, hm⟩ : ∃ m, (bucketValues length samples (latest.1 / length)).max? = some m := by
    have hvalue : latest.2 ∈ bucketValues length samples (latest.1 / length) :=
      mem_bucketValues.2 ⟨latest, hmem, rfl, rfl⟩
    exact Option.isSome_iff_exists.1 (List.isSome_max?_of_mem hvalue)
  refine ⟨m, ?_, ?_⟩
  · have hentry : ([latest.1 / length].filterMap fun k =>
        (bucketValues length samples k).max?.map fun m => (k * length, m)) =
        [(latest.1 / length * length, m)] := by
      rw [List.filterMap_cons, hm]
      rfl
    rw [bucketMaxima, hlist, List.filterMap_append, hentry]
    exact List.getLast?_concat
  · have hgreatest := isGreatest_max? hm
    simp only [mem_bucketValues] at hgreatest
    exact hgreatest

/-- **The last bucket and another set of samples.**  The maximum of the one is that of the other
if and only if each value of the one is reached in the other. -/
theorem isGreatest_iff_of_isGreatest {s t : Set α} {m : α} (hs : IsGreatest s m) :
    IsGreatest t m ↔ (∀ w ∈ t, ∃ v ∈ s, w ≤ v) ∧ ∀ v ∈ s, ∃ w ∈ t, v ≤ w := by
  constructor
  · intro htm
    exact ⟨fun w hw => ⟨m, hs.1, htm.2 hw⟩, fun v hv => ⟨m, htm.1, hs.2 hv⟩⟩
  · rintro ⟨hup, hdown⟩
    obtain ⟨w, hw, hmw⟩ := hdown m hs.1
    have hbound : ∀ w' ∈ t, w' ≤ m := by
      intro w' hw'
      obtain ⟨v, hv, hle⟩ := hup w' hw'
      exact hle.trans (hs.2 hv)
    have hmax : m = w := le_antisymm hmw (hbound w hw)
    exact ⟨hmax ▸ hw, hbound⟩

end
