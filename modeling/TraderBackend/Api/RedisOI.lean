import TraderBackend.Lib.Buckets
import TraderBackend.Lib.OrdMap
import TraderBackend.Lib.Interleave

/-!
# Open interest in Redis

`RedisOI` keeps the last open interest of every perpetual, and writes each observation to
a time series in Redis with a retention of 24 hours.

* **The time series.**  `tsCreate`, `tsAdd`, `tsRange`, as far as they are used here.
* **Observations.**  `oiStep` is `addOIObs`, cut at its commands to Redis, so that several
  calls can overlap; `addOIObs` makes these steps without interruption, and
  `retained_addAll` says what a sequence of them stores.
* **The maximum.**  `getMax24h` asks for the maxima of whole days and takes the last one.
  `getMax24h_iff`: that is the maximum of the window **if and only if** nothing in the
  window exceeds the last day, nor the last day the window.
-/

namespace TraderBackend

/-! ## The time series -/

/-- A time series of Redis. -/
structure TimeSeries where
  /-- In milliseconds; a series without it keeps everything. -/
  retention : Option ℕ
  /-- The policy `LAST`: a second sample at one time replaces the first. -/
  duplicateLast : Bool
  samples : OrdMap ℕ ℚ

/-- The time series of the server. -/
abbrev RedisSeries := OrdMap String TimeSeries

/-- Whether a sample is older than the retention, counted from another one. -/
def TimeSeries.expired (series : TimeSeries) (ts latest : ℕ) : Bool :=
  series.retention.any fun retention => decide (ts + retention < latest)

/-- The samples that are not older than the retention. -/
def TimeSeries.retained (series : TimeSeries) : List (ℕ × ℚ) :=
  series.samples.entries.filter fun e =>
    series.samples.entries.all fun e' => !series.expired e.1 e'.1

/-- `TS.CREATE`; it fails if the key exists. -/
def tsCreate (redis : RedisSeries) (key : String) (retention : ℕ) : Option RedisSeries :=
  if (redis.get? key).isSome then none
  else some (redis.set key ⟨some retention, true, OrdMap.empty⟩)

/-- `TS.ADD`: a missing series is created without a retention.  It fails for a sample that is too
old, or for a second one at the same time under another policy than `LAST`. -/
def tsAdd (redis : RedisSeries) (key : String) (ts : ℕ) (value : ℚ) : Option RedisSeries :=
  match redis.get? key with
  | none => some (redis.set key ⟨none, false, OrdMap.empty.set ts value⟩)
  | some series =>
      if series.samples.entries.any fun e => series.expired ts e.1 then none
      else if (series.samples.get? ts).isSome && !series.duplicateLast then none
      else some (redis.set key { series with samples := series.samples.set ts value })

/-- A reply of Redis; a text counts as the number it reads as. -/
inductive RedisReply where
  | null
  | integer (n : ℕ)
  | text (number : ℚ)
  | array (items : List RedisReply)

/-- `TS.RANGE key - + AGGREGATION MAX bucketSize`. -/
def tsRange (redis : RedisSeries) (key : String) (bucketSize : ℕ) : Except String RedisReply :=
  match redis.get? key with
  | none => .error "TSDB: the key does not exist"
  | some series =>
      .ok (.array ((bucketMaxima bucketSize series.retained).map fun entry =>
        .array [.integer entry.1, .text entry.2]))

/-! ## Observations -/

/-- An item of `lastOi`. -/
structure OIObs where
  ts : ℕ
  value : ℚ
  deriving DecidableEq

/-- The object, its client and the server. -/
structure OIState where
  lastOi : OrdMap ℕ OIObs
  isOpen : Bool
  redis : RedisSeries

/-- The arguments of `addOIObs`. -/
structure OICall where
  perpetualId : ℕ
  value : ℚ
  tsMs : ℕ
  deriving DecidableEq

/-- The item of a call. -/
def OICall.obs (call : OICall) : OIObs := ⟨call.tsMs, call.value⟩

/-- The key of a perpetual's time series. -/
def oiKey (perpetualId : ℕ) : String := "oi-ts:" ++ toString perpetualId

/-- `24 * 60 * 60 * 1000`. -/
def dayMs : ℕ := 86400000

/-- `get`. -/
def OIState.get (s : OIState) (perpetualId : ℕ) : ℚ :=
  match s.lastOi.get? perpetualId with
  | none => 0
  | some item => item.value

/-- `lastOi.set`. -/
def OIState.setLast (s : OIState) (call : OICall) : OIState :=
  { s with lastOi := s.lastOi.set call.perpetualId call.obs }

/-- Where a call stands: before which command to Redis, or behind `createTimeSeriesKey`. -/
inductive OIAt where
  | start
  | connect
  | timeSeriesExists
  | create
  | keyReady
  | add
  | done (ok : Bool)
  deriving DecidableEq

/-- The next step of a call; `fails` says whether its command to Redis fails.  An error in
`createTimeSeriesKey` is only logged. -/
def oiStep (call : OICall) (fails : Bool) (s : OIState) : OIAt → Option (OIState × OIAt)
  | .start =>
      match s.lastOi.get? call.perpetualId with
      | none => some (s, if s.isOpen then .timeSeriesExists else .connect)
      | some item => some (if item.ts < call.tsMs then s.setLast call else s, .add)
  | .connect =>
      if fails then some (s, .keyReady) else some ({ s with isOpen := true }, .timeSeriesExists)
  | .timeSeriesExists =>
      if fails || (s.redis.get? (oiKey call.perpetualId)).isSome then some (s, .keyReady)
      else some (s, .create)
  | .create =>
      if fails then some (s, .keyReady)
      else
        match tsCreate s.redis (oiKey call.perpetualId) dayMs with
        | none => some (s, .keyReady)
        | some redis => some ({ s with redis := redis }, .keyReady)
  | .keyReady => some (s.setLast call, .add)
  | .add =>
      if fails then some (s, .done false)
      else
        match tsAdd s.redis (oiKey call.perpetualId) call.tsMs call.value with
        | none => some (s, .done false)
        | some redis => some ({ s with redis := redis }, .done true)
  | .done _ => none

/-- The calls of a family. -/
def oiTasks {ι : Type*} (calls : ι → OICall) : Tasks ι Bool OIState OIAt where
  step i fails s l := oiStep (calls i) fails s l

/-- All calls before their first step, on a fresh object. -/
def oiStart {ι : Type*} (isOpen : Bool) (redis : RedisSeries) : Tasks.Config ι OIState OIAt where
  shared := ⟨OrdMap.empty, isOpen, redis⟩
  locals := fun _ => .start

/-- A number of steps of a call that nobody interrupts and in which nothing fails. -/
def OICall.alone (call : OICall) : ℕ → OIState × OIAt → OIState × OIAt
  | 0, c => c
  | n + 1, c =>
      match oiStep call false c.1 c.2 with
      | none => c
      | some c' => call.alone n c'

/-- `addOIObs`, its commands one after the other and without failures.  There are six steps at
most. -/
def addOIObs (s : OIState) (call : OICall) : OIState × Bool :=
  let c := call.alone 6 (s, .start)
  (c.1, decide (c.2 = .done true))

/-- What `createTimeSeriesKey` makes of the state. -/
def createTimeSeriesKey (s : OIState) (perpetualId : ℕ) : OIState :=
  { s with
    isOpen := true
    redis := (tsCreate s.redis (oiKey perpetualId) dayMs).getD s.redis }

/-- What a call makes of it before `TS.ADD`. -/
def recordLast (s : OIState) (call : OICall) : OIState :=
  match s.lastOi.get? call.perpetualId with
  | none => (createTimeSeriesKey s call.perpetualId).setLast call
  | some item => if item.ts < call.tsMs then s.setLast call else s

section

variable {call : OICall} {s : OIState}

theorem alone_of_step {s' : OIState} {l l' : OIAt} (n : ℕ)
    (h : oiStep call false s l = some (s', l')) :
    call.alone (n + 1) (s, l) = call.alone n (s', l') := by
  rw [OICall.alone, h]

theorem alone_done (n : ℕ) (s : OIState) (ok : Bool) :
    call.alone n (s, .done ok) = (s, .done ok) := by
  cases n <;> rfl

/-- The last step of a call. -/
theorem alone_add (n : ℕ) (s : OIState) :
    call.alone (n + 1) (s, .add) =
      match tsAdd s.redis (oiKey call.perpetualId) call.tsMs call.value with
      | none => (s, .done false)
      | some redis => ({ s with redis := redis }, .done true) := by
  cases hadd : tsAdd s.redis (oiKey call.perpetualId) call.tsMs call.value with
  | none =>
    have hstep : oiStep call false s .add = some (s, .done false) := by
      simp [oiStep, hadd]
    rw [alone_of_step n hstep, alone_done]
  | some redis =>
    have hstep : oiStep call false s .add = some ({ s with redis := redis }, .done true) := by
      simp [oiStep, hadd]
    rw [alone_of_step n hstep, alone_done]

/-- Behind `createTimeSeriesKey`. -/
theorem alone_keyReady (n : ℕ) (s : OIState) :
    call.alone (n + 1) (s, .keyReady) = call.alone n (s.setLast call, .add) :=
  alone_of_step n rfl

variable (call s) in
/-- From the check of the key on, the client being connected. -/
theorem alone_timeSeriesExists (n : ℕ) :
    ∃ m, call.alone (n + 4) ({ s with isOpen := true }, .timeSeriesExists) =
      call.alone (m + 1) ((createTimeSeriesKey s call.perpetualId).setLast call, .add) := by
  cases hkey : s.redis.get? (oiKey call.perpetualId) with
  | some series =>
    have hsame : createTimeSeriesKey s call.perpetualId = { s with isOpen := true } := by
      simp [createTimeSeriesKey, tsCreate, hkey]
    have hexists : oiStep call false { s with isOpen := true } .timeSeriesExists =
        some ({ s with isOpen := true }, .keyReady) := by
      simp [oiStep, hkey]
    refine ⟨n + 1, ?_⟩
    rw [alone_of_step _ hexists, alone_keyReady, hsame]
  | none =>
    have hmissing : oiStep call false { s with isOpen := true } .timeSeriesExists =
        some ({ s with isOpen := true }, .create) := by
      simp [oiStep, hkey]
    have hcreate : oiStep call false { s with isOpen := true } .create =
        some (createTimeSeriesKey s call.perpetualId, .keyReady) := by
      simp [oiStep, createTimeSeriesKey, tsCreate, hkey]
    refine ⟨n, ?_⟩
    rw [alone_of_step _ hmissing, alone_of_step _ hcreate, alone_keyReady]

variable (call s) in
/-- The steps of a call up to `TS.ADD`. -/
theorem alone_start :
    ∃ n, call.alone 6 (s, .start) = call.alone (n + 1) (recordLast s call, .add) := by
  cases hitem : s.lastOi.get? call.perpetualId with
  | some item =>
    have hstart : oiStep call false s .start = some (recordLast s call, .add) := by
      simp only [oiStep, recordLast, hitem]
    exact ⟨4, alone_of_step 5 hstart⟩
  | none =>
    have hrecord : recordLast s call =
        (createTimeSeriesKey s call.perpetualId).setLast call := by
      simp only [recordLast, hitem]
    rw [hrecord]
    cases hopen : s.isOpen with
    | true =>
      have hconnected : { s with isOpen := true } = s := by rw [← hopen]
      have hstart : oiStep call false s .start = some (s, .timeSeriesExists) := by
        simp [oiStep, hitem, hopen]
      have hrest := alone_timeSeriesExists call s 1
      rw [hconnected] at hrest
      rwa [alone_of_step 5 hstart]
    | false =>
      have hstart : oiStep call false s .start = some (s, .connect) := by
        simp [oiStep, hitem, hopen]
      have hconnect : oiStep call false s .connect =
          some ({ s with isOpen := true }, .timeSeriesExists) := rfl
      rw [alone_of_step 5 hstart, alone_of_step 4 hconnect]
      exact alone_timeSeriesExists call s 0

/-- **A call on its own.**  It sets its item, if that is the newest one, and adds its sample. -/
theorem addOIObs_eq (s : OIState) (call : OICall) :
    addOIObs s call =
      match tsAdd (recordLast s call).redis (oiKey call.perpetualId) call.tsMs call.value with
      | none => (recordLast s call, false)
      | some redis => ({ recordLast s call with redis := redis }, true) := by
  obtain ⟨n, hstart⟩ := alone_start call s
  rw [addOIObs, hstart, alone_add]
  cases tsAdd (recordLast s call).redis (oiKey call.perpetualId) call.tsMs call.value <;> rfl

end

/-! ## What is stored -/

/-- The retained samples of a perpetual. -/
def OIState.retainedObs (s : OIState) (perpetualId : ℕ) : List (ℕ × ℚ) :=
  (s.redis.get? (oiKey perpetualId)).elim [] TimeSeries.retained

/-- Calls one after the other, without failures. -/
def addAll (s : OIState) (calls : List OICall) : OIState :=
  calls.foldl (fun s call => (addOIObs s call).1) s

/-- A sample lies in the 24 hours up to a time. -/
def inWindow (t ts : ℕ) : Bool := decide (t < ts + dayMs ∧ ts ≤ t)

/-- The series of a perpetual holds the given samples, or it is still missing. -/
def Holds (s : OIState) (perpetualId : ℕ) (samples : OrdMap ℕ ℚ) : Prop :=
  s.redis.get? (oiKey perpetualId) = some ⟨some dayMs, true, samples⟩ ∨
    s.redis.get? (oiKey perpetualId) = none ∧ s.lastOi.get? perpetualId = none ∧
      samples = OrdMap.empty

/-- Samples of one window do not expire. -/
theorem not_expired {samples : OrdMap ℕ ℚ} {t ts latest : ℕ} (hts : inWindow t ts = true)
    (hlatest : inWindow t latest = true) :
    (⟨some dayMs, true, samples⟩ : TimeSeries).expired ts latest = false := by
  simp only [inWindow, decide_eq_true_eq] at hts hlatest
  rw [TimeSeries.expired, Option.any_some, decide_eq_false_iff_not, not_lt]
  exact hlatest.2.trans hts.1.le

/-- Before `TS.ADD` the series is there. -/
theorem recordLast_redis {s : OIState} {call : OICall} {samples : OrdMap ℕ ℚ}
    (hs : Holds s call.perpetualId samples) :
    (recordLast s call).redis.get? (oiKey call.perpetualId) =
      some ⟨some dayMs, true, samples⟩ := by
  unfold recordLast
  rcases hs with hseries | ⟨hkey, hitem, rfl⟩
  · split
    · simp only [OIState.setLast, createTimeSeriesKey, tsCreate, hseries, Option.isSome_some,
        if_true, Option.getD_none]
    · split <;> exact hseries
  · simp only [hitem, OIState.setLast, createTimeSeriesKey, tsCreate, hkey, Option.isSome_none,
      Bool.false_eq_true, if_false, Option.getD_some, OrdMap.get?_set_self]

/-- The step lemma of the store. -/
theorem holds_addOIObs {s : OIState} {call : OICall} {samples : OrdMap ℕ ℚ} {t : ℕ}
    (hs : Holds s call.perpetualId samples) (hcall : inWindow t call.tsMs = true)
    (hsamples : ∀ e ∈ samples.entries, inWindow t e.1 = true) :
    Holds (addOIObs s call).1 call.perpetualId (samples.set call.tsMs call.value) := by
  have hany : (samples.entries.any fun e =>
      (⟨some dayMs, true, samples⟩ : TimeSeries).expired call.tsMs e.1) = false := by
    rw [List.any_eq_false]
    intro e he
    rw [not_expired hcall (hsamples e he)]
    exact Bool.false_ne_true
  left
  simp only [addOIObs_eq, tsAdd, recordLast_redis hs, hany, Bool.false_eq_true, if_false,
    Bool.not_true, Bool.and_false, OrdMap.get?_set_self]

/-- The samples after some calls: the last value of every time. -/
def samplesOf (samples : OrdMap ℕ ℚ) (calls : List OICall) : OrdMap ℕ ℚ :=
  calls.foldl (fun samples call => samples.set call.tsMs call.value) samples

/-- The run lemma of the store. -/
theorem holds_addAll {perpetualId t : ℕ} (calls : List OICall) {s : OIState}
    {samples : OrdMap ℕ ℚ}
    (hcalls : ∀ call ∈ calls, call.perpetualId = perpetualId ∧ inWindow t call.tsMs = true)
    (hs : Holds s perpetualId samples) (hsamples : ∀ e ∈ samples.entries, inWindow t e.1 = true) :
    Holds (addAll s calls) perpetualId (samplesOf samples calls) ∧
      ∀ e ∈ (samplesOf samples calls).entries, inWindow t e.1 = true := by
  induction calls generalizing s samples with
  | nil => exact ⟨hs, hsamples⟩
  | cons call calls ih =>
    obtain ⟨⟨rfl, hcall⟩, hrest⟩ := List.forall_mem_cons.1 hcalls
    refine ih hrest (holds_addOIObs hs hcall hsamples) fun e he => ?_
    have hget := OrdMap.get?_eq_some.2 he
    rcases OrdMap.get?_set_cases hget with ⟨hkey, -⟩ | hold
    · exact hkey ▸ hcall
    · exact hsamples e (OrdMap.get?_eq_some.1 hold)

/-- **What is stored.**  After observations of one perpetual in one window on a fresh object and a
missing series, the series has the last value of every time, and all of it is retained. -/
theorem retained_addAll {s : OIState} {perpetualId t : ℕ} {calls : List OICall}
    (hkey : s.redis.get? (oiKey perpetualId) = none) (hitem : s.lastOi.get? perpetualId = none)
    (hcalls : ∀ call ∈ calls, call.perpetualId = perpetualId ∧ inWindow t call.tsMs = true) :
    (addAll s calls).retainedObs perpetualId = (samplesOf OrdMap.empty calls).entries := by
  obtain ⟨hholds, hall⟩ := holds_addAll calls hcalls (Or.inr ⟨hkey, hitem, rfl⟩) (by
    intro e he
    cases he)
  rcases hholds with hseries | ⟨hnone, -, hempty⟩
  · rw [OIState.retainedObs, hseries, Option.elim_some, TimeSeries.retained, List.filter_eq_self]
    intro e he
    rw [List.all_eq_true]
    intro e' he'
    rw [not_expired (hall e he) (hall e' he')]
    rfl
  · rw [OIState.retainedObs, hnone, hempty]
    rfl

/-! ## The maximum -/

/-- `getMax24h` from the reply on. -/
def maxOfReply : Except String RedisReply → ℚ
  | .ok (.array res) =>
      match res.getLast? with
      | some (.array lastEntry) =>
          match (lastEntry[1]? : Option RedisReply) with
          | some (.text val) => val
          | _ => 0
      | _ => 0
  | _ => 0

/-- `getMax24h`. -/
def OIState.getMax24h (s : OIState) (perpetualId : ℕ) : ℚ :=
  maxOfReply (tsRange s.redis (oiKey perpetualId) dayMs)

/-- The observations of the 24 hours up to a time. -/
def OIState.window (s : OIState) (perpetualId t : ℕ) : List (ℕ × ℚ) :=
  (s.retainedObs perpetualId).filter fun e => inWindow t e.1

/-- The observations of the last day that has any; days begin at midnight. -/
def OIState.lastDay (s : OIState) (perpetualId : ℕ) : List (ℕ × ℚ) :=
  (s.retainedObs perpetualId).filter fun e =>
    (s.retainedObs perpetualId).all fun e' => decide (e'.1 / dayMs ≤ e.1 / dayMs)

/-- The values of some observations. -/
def valuesOf (obs : List (ℕ × ℚ)) : Set ℚ := {v | ∃ e ∈ obs, e.2 = v}

theorem mem_lastDay {s : OIState} {perpetualId : ℕ} {latest : ℕ × ℚ}
    (hmem : latest ∈ s.retainedObs perpetualId)
    (hlatest : ∀ e ∈ s.retainedObs perpetualId, e.1 ≤ latest.1) {e : ℕ × ℚ} :
    e ∈ s.lastDay perpetualId ↔
      e ∈ s.retainedObs perpetualId ∧ e.1 / dayMs = latest.1 / dayMs := by
  rw [OIState.lastDay, List.mem_filter, List.all_eq_true]
  refine and_congr_right fun he => ⟨fun hall => ?_, fun heq e' he' => decide_eq_true ?_⟩
  · exact le_antisymm (Nat.div_le_div_right (hlatest e he)) (of_decide_eq_true (hall latest hmem))
  · rw [heq]
    exact Nat.div_le_div_right (hlatest e' he')

/-- What is returned is the maximum of the last day. -/
theorem isGreatest_lastDay {s : OIState} {perpetualId : ℕ}
    (h : s.retainedObs perpetualId ≠ []) :
    IsGreatest (valuesOf (s.lastDay perpetualId)) (s.getMax24h perpetualId) := by
  obtain ⟨latest, hmem, hlatest⟩ := Finset.exists_max_image (s.retainedObs perpetualId).toFinset
    Prod.fst (List.toFinset_nonempty_iff _ |>.2 h)
  rw [List.mem_toFinset] at hmem
  have hbound : ∀ e ∈ s.retainedObs perpetualId, e.1 ≤ latest.1 := fun e he =>
    hlatest e (List.mem_toFinset.2 he)
  obtain ⟨m, hlast, hgreatest⟩ := getLast?_bucketMaxima dayMs hmem hbound
  have hresult : s.getMax24h perpetualId = m := by
    cases hseries : s.redis.get? (oiKey perpetualId) with
    | none =>
      rw [OIState.retainedObs, hseries] at hmem
      cases hmem
    | some series =>
      rw [OIState.retainedObs, hseries, Option.elim_some] at hlast
      simp only [OIState.getMax24h, tsRange, hseries, maxOfReply, List.getLast?_map, hlast,
        Option.map_some]
      rfl
  have hday : valuesOf (s.lastDay perpetualId) =
      {v | ∃ e ∈ s.retainedObs perpetualId, e.1 / dayMs = latest.1 / dayMs ∧ e.2 = v} := by
    ext v
    simp only [valuesOf, Set.mem_ofPred_eq, mem_lastDay hmem hbound, and_assoc]
  rw [hresult, hday]
  exact hgreatest

/-- **The 24-hour maximum.**  Of a window that has observations, `getMax24h` returns the maximum if
and only if each of them is reached on the last day that has observations, and each observation of
that day is reached in the window. -/
theorem getMax24h_iff {s : OIState} {perpetualId t : ℕ} (h : s.window perpetualId t ≠ []) :
    IsGreatest (valuesOf (s.window perpetualId t)) (s.getMax24h perpetualId) ↔
      (∀ e ∈ s.window perpetualId t, ∃ e' ∈ s.lastDay perpetualId, e.2 ≤ e'.2) ∧
        ∀ e ∈ s.lastDay perpetualId, ∃ e' ∈ s.window perpetualId t, e.2 ≤ e'.2 := by
  have hne : s.retainedObs perpetualId ≠ [] := by
    intro hnil
    rw [OIState.window, hnil] at h
    exact h rfl
  rw [isGreatest_iff_of_isGreatest (isGreatest_lastDay hne)]
  simp only [valuesOf, Set.mem_ofPred_eq, exists_exists_and_eq_and, forall_exists_index, and_imp,
    forall_apply_eq_imp_iff₂]

/-- Three observations of one afternoon, not in order. -/
def oneAfternoon : List OICall :=
  [⟨10001, 12, 50000000⟩, ⟨10001, 25, 50000002⟩, ⟨10001, 19, 50000001⟩]

/-- A high value in the evening, a low one in the night. -/
def acrossMidnight : List OICall := [⟨10001, 25, 82800000⟩, ⟨10001, 12, 90000000⟩]

/-- An object with a connected client and an empty server. -/
def freshOI : OIState := ⟨OrdMap.empty, true, OrdMap.empty⟩

/-- The law at work there. -/
theorem oneAfternoon_max :
    IsGreatest (valuesOf ((addAll freshOI oneAfternoon).window 10001 60000000))
      ((addAll freshOI oneAfternoon).getMax24h 10001) := by
  have hday : (addAll freshOI oneAfternoon).lastDay 10001 =
      (addAll freshOI oneAfternoon).window 10001 60000000 := by decide
  refine (getMax24h_iff (by decide)).2 ?_
  rw [hday]
  exact ⟨fun e he => ⟨e, he, le_refl _⟩, fun e he => ⟨e, he, le_refl _⟩⟩

/-- One hour after midnight the value of two hours before is forgotten. -/
theorem acrossMidnight_forgotten :
    (addAll freshOI acrossMidnight).window 10001 90000000 = [(82800000, 25), (90000000, 12)] ∧
      (addAll freshOI acrossMidnight).getMax24h 10001 = 12 ∧
      ¬ IsGreatest (valuesOf ((addAll freshOI acrossMidnight).window 10001 90000000))
        ((addAll freshOI acrossMidnight).getMax24h 10001) := by
  have hwindow : (addAll freshOI acrossMidnight).window 10001 90000000 =
      [(82800000, 25), (90000000, 12)] := by decide
  have hmax : (addAll freshOI acrossMidnight).getMax24h 10001 = 12 := by rfl
  refine ⟨hwindow, hmax, fun h => ?_⟩
  have hle := h.2 ⟨(82800000, 25), by rw [hwindow]; exact List.mem_cons_self, rfl⟩
  rw [hmax] at hle
  norm_num at hle

end TraderBackend
