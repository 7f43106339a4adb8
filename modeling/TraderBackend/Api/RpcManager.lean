import TraderBackend.Lib.OrdMap
import TraderBackend.Lib.Interleave

/-!
# Choosing an RPC node

`RPCManager` keeps its URLs in one array.  `getRPC` takes the last one out, checks it
if that was not done within the last minute, puts it back in front, and goes on until
one is healthy.  Calls that overlap share the array.

* **The calls.**  `tryNext` and `getRPCStep`: a call up to its next await.
* **Overlapping calls.**  `Undisturbed` says of a step that the calls do not get in
  each other's way; in a run of such steps a call rejects only if every URL was found
  unhealthy by its latest check: `getRPC_rejects_rightly`.
* **One call after the other.**  `undisturbed_of_serial`: calls that do not overlap do
  not get in each other's way.  A call hands itself every URL of the array once.
-/

namespace TraderBackend

/-! ## The calls -/

structure RPCManager where
  rpcURLs : List String
  healthy : OrdMap String Bool
  lastCheck : OrdMap String ℕ

/-- Where a call of `getRPC(true)` stands. -/
inductive RpcCallAt where
  | start
  /-- The URL is taken out of the array and its network is being detected. -/
  | checking (numTries : ℕ) (rpc : String)
  /-- That has ended, in time and without an error or not. -/
  | checked (numTries : ℕ) (rpc : String) (ok : Bool)
  /-- `cycleRPCs` has returned the URL. -/
  | cycled (numTries : ℕ) (rpc : String)
  | returned (rpc : String)
  | rejected (msg : String)
  deriving DecidableEq

namespace RPCManager

variable (m : RPCManager) (now : ℕ)

/-- The end of `cycleRPCs`. -/
def putBack (rpc : String) : RPCManager := { m with rpcURLs := rpc :: m.rpcURLs }

/-- The URL was never checked, or more than a minute ago. -/
def needsCheck (rpc : String) : Bool :=
  (m.healthy.get? rpc).isNone || decide ((m.lastCheck.get? rpc).getD 0 + 60000 < now)

/-- `cycleRPCs` up to its await, or to its end where there is nothing to await. -/
def cycleRPCs (numTries : ℕ) : RPCManager × RpcCallAt :=
  match m.rpcURLs.getLast? with
  | none => (m, .rejected "No RPCs in queue")
  | some rpc =>
      let taken := { m with rpcURLs := m.rpcURLs.dropLast }
      if needsCheck m now rpc then (taken, .checking numTries rpc)
      else (taken.putBack rpc, .cycled numTries rpc)

/-- The test of the loop, and one more try if it holds. -/
def tryNext (numTries : ℕ) : RPCManager × RpcCallAt :=
  if numTries < m.rpcURLs.length then m.cycleRPCs now (numTries + 1)
  else (m, .rejected "No healthy RPCs")

/-- One step of `getRPC(true)`; `ok` is how a check ends that ends in this step. -/
def getRPCStep (ok : Bool) : RpcCallAt → Option (RPCManager × RpcCallAt)
  | .start =>
      some (if m.rpcURLs.length < 1 then (m, .rejected "No RPCs in queue") else m.tryNext now 0)
  | .checking numTries rpc => some (m, .checked numTries rpc ok)
  | .checked numTries rpc ok =>
      let m := { m with healthy := m.healthy.set rpc ok, lastCheck := m.lastCheck.set rpc now }
      some (m.putBack rpc, .cycled numTries rpc)
  | .cycled numTries rpc =>
      some (if m.healthy.get? rpc = some true then (m, .returned rpc) else m.tryNext now numTries)
  | .returned _ => none
  | .rejected _ => none

end RPCManager

/-! ## Overlapping calls -/

/-- The manager, and the URLs each unfinished call was handed and found unhealthy, which only
statements look at. -/
structure RpcState (ι : Type*) where
  manager : RPCManager
  tried : ι → List String

/-- The call has ended. -/
def RpcCallAt.finished : RpcCallAt → Bool
  | .returned _ => true
  | .rejected _ => true
  | _ => false

/-- What a call has been handed and found unhealthy after a step; a URL it has checked is
judged anew. -/
def triedAfter (tried : List String) (l l' : RpcCallAt) : List String :=
  if l'.finished then []
  else
    match l with
    | .checked _ rpc _ => tried.filter fun url => decide (url ≠ rpc)
    | .cycled _ rpc => rpc :: tried
    | _ => tried

variable {ι : Type*} [DecidableEq ι]

/-- Calls of `getRPC(true)` on one manager.  The environment decides the time and how a check
ends. -/
def getRPCCalls : Tasks ι (ℕ × Bool) (RpcState ι) RpcCallAt where
  step i k s l := (s.manager.getRPCStep k.1 k.2 l).map fun r =>
    (⟨r.1, Function.update s.tried i (triedAfter (s.tried i) l r.2)⟩, r.2)

/-- No URL was checked yet, and no call has begun. -/
def rpcStart (urls : List String) : Tasks.Config ι (RpcState ι) RpcCallAt where
  shared := ⟨⟨urls, OrdMap.empty, OrdMap.empty⟩, fun _ => []⟩
  locals _ := .start

/-- The other calls do not get in the way of this step: the array is not empty when a call
begins; when one finds a URL healthy, no other has found it unhealthy and is still looking; and
when one gives up, it has been handed every URL.  Where every other call rests, and so none has a
URL out or moves one, all three hold (`undisturbed_of_serial`). -/
def Undisturbed (urls : List String) (i : ι) (s : RpcState ι) : RpcCallAt → Prop
  | .start => s.manager.rpcURLs ≠ []
  | .checked _ rpc true => ∀ j, j ≠ i → rpc ∉ s.tried j
  | .cycled numTries rpc => s.manager.healthy.get? rpc ≠ some true →
      s.manager.rpcURLs.length ≤ numTries → ∀ url ∈ urls, url ∈ rpc :: s.tried i
  | _ => True

/-- How a call goes on after the test of its loop: it gives up, or takes the last URL out and
checks it, or puts it back at once. -/
theorem tryNext_cases (m : RPCManager) (now numTries : ℕ) :
    (m.rpcURLs.length ≤ numTries ∧ m.tryNext now numTries = (m, .rejected "No healthy RPCs")) ∨
      ∃ front rpc, m.rpcURLs = front ++ [rpc] ∧ numTries < m.rpcURLs.length ∧
        (m.tryNext now numTries = ({ m with rpcURLs := front }, .checking (numTries + 1) rpc) ∨
          (m.healthy.get? rpc).isSome = true ∧ m.tryNext now numTries =
            ({ m with rpcURLs := rpc :: front }, .cycled (numTries + 1) rpc)) := by
  unfold RPCManager.tryNext
  by_cases hlt : numTries < m.rpcURLs.length
  · right
    have hne : m.rpcURLs ≠ [] := by
      rintro hnil
      rw [hnil] at hlt
      exact absurd hlt (Nat.not_lt_zero _)
    refine ⟨m.rpcURLs.dropLast, m.rpcURLs.getLast hne, (List.dropLast_append_getLast hne).symm, hlt,
      ?_⟩
    rw [if_pos hlt, RPCManager.cycleRPCs, List.getLast?_eq_some_getLast hne]
    simp only
    cases hcheck : m.needsCheck now (m.rpcURLs.getLast hne) with
    | true => exact Or.inl rfl
    | false =>
      refine Or.inr ⟨?_, rfl⟩
      rw [RPCManager.needsCheck, Bool.or_eq_false_iff] at hcheck
      exact Option.isNone_eq_false_iff.1 hcheck.1
  · exact Or.inl ⟨Nat.le_of_not_lt hlt, by rw [if_neg hlt]⟩

/-- Going on changes nothing that is known about a URL. -/
theorem healthy_tryNext (m : RPCManager) (now numTries : ℕ) :
    (m.tryNext now numTries).1.healthy = m.healthy := by
  rcases tryNext_cases m now numTries with ⟨-, heq⟩ | ⟨front, rpc, -, -, heq | ⟨-, heq⟩⟩ <;>
    rw [heq]

/-- Where a call is handed a URL at once, it was checked before. -/
theorem cycled_tryNext (m : RPCManager) (now numTries : ℕ) {n : ℕ} {rpc : String}
    (h : (m.tryNext now numTries).2 = .cycled n rpc) : (m.healthy.get? rpc).isSome = true := by
  rcases tryNext_cases m now numTries with ⟨-, heq⟩ | ⟨front, rpc', -, -, heq | ⟨hsome, heq⟩⟩
  · rw [heq] at h; cases h
  · rw [heq] at h; cases h
  · rw [heq] at h; cases h; exact hsome

/-- What one step does: a call finds the array empty, a check ends, its outcome is noted, a URL is
returned, or the call comes to the test of its loop. -/
theorem getRPCStep_cases {m m' : RPCManager} {now : ℕ} {ok : Bool} {l l' : RpcCallAt}
    (h : m.getRPCStep now ok l = some (m', l')) :
    (l = .start ∧ m.rpcURLs = [] ∧ m' = m ∧ l' = .rejected "No RPCs in queue") ∨
      (∃ n rpc, l = .checking n rpc ∧ m' = m ∧ l' = .checked n rpc ok) ∨
      (∃ n rpc ok', l = .checked n rpc ok' ∧ m'.rpcURLs = rpc :: m.rpcURLs ∧
        m'.healthy = m.healthy.set rpc ok' ∧ l' = .cycled n rpc) ∨
      (∃ n rpc, l = .cycled n rpc ∧ m' = m ∧ l' = .returned rpc) ∨
      (l = .start ∧ m.tryNext now 0 = (m', l')) ∨
      ∃ n rpc, l = .cycled n rpc ∧ m.healthy.get? rpc ≠ some true ∧
        m.tryNext now n = (m', l') := by
  cases l with
  | start =>
    simp only [RPCManager.getRPCStep, Option.some.injEq] at h
    split at h
    · rename_i hempty
      cases h
      exact Or.inl ⟨rfl, List.length_eq_zero_iff.1 (by omega), rfl, rfl⟩
    · exact Or.inr (Or.inr (Or.inr (Or.inr (Or.inl ⟨rfl, h⟩))))
  | checking n rpc =>
    cases h
    exact Or.inr (Or.inl ⟨n, rpc, rfl, rfl, rfl⟩)
  | checked n rpc ok' =>
    cases h
    exact Or.inr (Or.inr (Or.inl ⟨n, rpc, ok', rfl, rfl, rfl, rfl⟩))
  | cycled n rpc =>
    simp only [RPCManager.getRPCStep, Option.some.injEq] at h
    split at h
    · cases h
      exact Or.inr (Or.inr (Or.inr (Or.inl ⟨n, rpc, rfl, rfl, rfl⟩)))
    · rename_i hunhealthy
      exact Or.inr (Or.inr (Or.inr (Or.inr (Or.inr ⟨n, rpc, rfl, hunhealthy, h⟩))))
  | returned rpc => cases h
  | rejected msg => cases h

/-- What is known about URLs changes only when a check ends. -/
theorem healthy_step {m m' : RPCManager} {now : ℕ} {ok : Bool} {l l' : RpcCallAt}
    (h : m.getRPCStep now ok l = some (m', l')) :
    m'.healthy = m.healthy ∨
      ∃ n rpc ok', l = .checked n rpc ok' ∧ m'.healthy = m.healthy.set rpc ok' := by
  have hnext : ∀ n, m.tryNext now n = (m', l') → m'.healthy = m.healthy := by
    intro n hnext
    have hhealthy := healthy_tryNext m now n
    rw [hnext] at hhealthy
    exact hhealthy
  rcases getRPCStep_cases h with ⟨-, -, rfl, -⟩ | ⟨n, rpc, -, rfl, -⟩ |
    ⟨n, rpc, ok', hl, -, hset, -⟩ | ⟨n, rpc, -, rfl, -⟩ | ⟨-, hgo⟩ | ⟨n, rpc, -, -, hgo⟩
  · exact Or.inl rfl
  · exact Or.inl rfl
  · exact Or.inr ⟨n, rpc, ok', hl, hset⟩
  · exact Or.inl rfl
  · exact Or.inl (hnext 0 hgo)
  · exact Or.inl (hnext n hgo)

/-- What a call knows: the URLs it was handed and gave up are known to be unhealthy, and about the
one it has just been handed something is known. -/
structure Knowing (i : ι) (l : RpcCallAt) (s : RpcState ι) : Prop where
  tried : ∀ url ∈ s.tried i, s.manager.healthy.get? url = some false
  cycled : ∀ n rpc, l = .cycled n rpc → (s.manager.healthy.get? rpc).isSome = true

omit [DecidableEq ι] in
/-- Something is known about the URL a call was just handed. -/
theorem Knowing.unhealthy {i : ι} {n : ℕ} {rpc : String} {s : RpcState ι}
    (h : Knowing i (.cycled n rpc) s) (hunhealthy : s.manager.healthy.get? rpc ≠ some true) :
    s.manager.healthy.get? rpc = some false := by
  obtain ⟨b, hb⟩ := Option.isSome_iff_exists.1 (h.cycled n rpc rfl)
  cases b with
  | true => exact absurd hb hunhealthy
  | false => exact hb

/-- A step of a call: one of `getRPC(true)`, and what it has tried. -/
theorem getRPCCalls_step {i : ι} {k : ℕ × Bool} {s s' : RpcState ι} {l l' : RpcCallAt}
    (h : getRPCCalls.step i k s l = some (s', l')) :
    s.manager.getRPCStep k.1 k.2 l = some (s'.manager, l') ∧
      s'.tried i = triedAfter (s.tried i) l l' ∧ ∀ j, j ≠ i → s'.tried j = s.tried j := by
  obtain ⟨⟨m', l''⟩, hm, hr⟩ := Option.map_eq_some_iff.1 h
  cases hr
  exact ⟨hm, Function.update_self _ _ _, fun j hj => Function.update_of_ne hj _ _⟩

omit [DecidableEq ι] in
/-- A call that goes on after the test of its loop. -/
theorem Knowing.tryNext {i : ι} {l' : RpcCallAt} {s s' : RpcState ι} {now numTries : ℕ}
    {tried : List String} (h : ∀ url ∈ tried, s.manager.healthy.get? url = some false)
    (hnext : s.manager.tryNext now numTries = (s'.manager, l'))
    (htried : s'.tried i = if l'.finished then [] else tried) : Knowing i l' s' := by
  have hhealthy := healthy_tryNext s.manager now numTries
  have hcycled : ∀ n rpc, (s.manager.tryNext now numTries).2 = .cycled n rpc →
      (s.manager.healthy.get? rpc).isSome = true := fun n rpc => cycled_tryNext _ _ _
  rw [hnext] at hhealthy hcycled
  constructor
  · intro url hurl
    rw [htried] at hurl
    split at hurl
    · cases hurl
    · exact hhealthy ▸ h url hurl
  · intro n rpc hl
    exact hhealthy ▸ hcycled n rpc hl

omit [DecidableEq ι] in
/-- A call keeps what it knows over its own steps. -/
theorem Knowing.own {i : ι} {l l' : RpcCallAt} {s s' : RpcState ι} {now : ℕ} {ok : Bool}
    (h : Knowing i l s) (hstep : s.manager.getRPCStep now ok l = some (s'.manager, l'))
    (htried : s'.tried i = triedAfter (s.tried i) l l') : Knowing i l' s' := by
  rcases getRPCStep_cases hstep with ⟨rfl, -, -, rfl⟩ | ⟨n, rpc, rfl, hm, rfl⟩ |
    ⟨n, rpc, ok', rfl, -, hhealthy, rfl⟩ | ⟨n, rpc, rfl, -, rfl⟩ | ⟨rfl, hnext⟩ |
    ⟨n, rpc, rfl, hunhealthy, hnext⟩
  · exact ⟨by simp [htried, triedAfter, RpcCallAt.finished], fun n rpc hl => by cases hl⟩
  · refine ⟨?_, fun n rpc hl => by cases hl⟩
    simpa [htried, triedAfter, RpcCallAt.finished, hm] using h.tried
  · constructor
    · intro url hurl
      have hmem : url ∈ s.tried i ∧ url ≠ rpc := by
        simpa [htried, triedAfter, RpcCallAt.finished] using hurl
      rw [hhealthy, OrdMap.get?_set, if_neg (Ne.symm hmem.2)]
      exact h.tried url hmem.1
    · intro n' rpc' hl
      cases hl
      rw [hhealthy, OrdMap.get?_set_self]
      rfl
  · exact ⟨by simp [htried, triedAfter, RpcCallAt.finished], fun n rpc hl => by cases hl⟩
  · exact Knowing.tryNext h.tried hnext htried
  · refine Knowing.tryNext ?_ hnext htried
    intro url hurl
    rcases List.mem_cons.1 hurl with rfl | hold
    · exact h.unhealthy hunhealthy
    · exact h.tried url hold

/-- The step lemma: in undisturbed steps no call loses what it knows. -/
theorem getRPCCalls_outline (urls : List String) :
    ((getRPCCalls (ι := ι)).restrict (Undisturbed urls)).Outline (fun _ => True) Knowing := by
  constructor
  · intro i k s l s' l' h _ hknows
    obtain ⟨hm, htried, -⟩ := getRPCCalls_step (Tasks.restrict_step h).2
    exact ⟨trivial, hknows.own hm htried⟩
  · intro i k s l s' l' j lj hij h _ _ hknows
    obtain ⟨hguard, hstep⟩ := Tasks.restrict_step h
    obtain ⟨hm, -, hothers⟩ := getRPCCalls_step hstep
    have htried := hothers j (Ne.symm hij)
    rcases healthy_step hm with hsame | ⟨n, rpc, ok, rfl, hset⟩
    · refine ⟨?_, ?_⟩
      · rw [htried, hsame]
        exact hknows.tried
      · rw [hsame]
        exact hknows.cycled
    · constructor
      · intro url hurl
        rw [htried] at hurl
        rw [hset, OrdMap.get?_set]
        by_cases hrpc : rpc = url
        · subst hrpc
          -- the check cannot have found healthy what `j` has given up
          cases ok with
          | true => exact absurd hurl (hguard j (Ne.symm hij))
          | false => exact if_pos rfl
        · rw [if_neg hrpc]
          exact hknows.tried url hurl
      · intro n' rpc' hl
        rw [hset, OrdMap.get?_set]
        split
        · rfl
        · exact hknows.cycled n' rpc' hl

/-- A call that rejects does so for lack of healthy URLs, and at that moment every URL of the
list was found unhealthy by its latest check. -/
def RejectsRightly (urls : List String) (schedule : List (ι × (ℕ × Bool))) : Prop :=
  ∀ before i k after d d' msg, schedule = before ++ (i, k) :: after →
    getRPCCalls.run before (rpcStart urls) = some d → getRPCCalls.turn d i k = some d' →
      d'.locals i = .rejected msg →
        msg = "No healthy RPCs" ∧ ∀ url ∈ urls, d'.shared.manager.healthy.get? url = some false

/-- **Calls that do not disturb each other reject rightly.** -/
theorem getRPC_rejects_rightly (urls : List String) (schedule : List (ι × (ℕ × Bool)))
    (hmeets : getRPCCalls.Meets (Undisturbed urls) schedule (rpcStart urls)) :
    RejectsRightly urls schedule := by
  rintro before i k after d d' msg rfl hrun hturn hmsg
  have hguard := hmeets before i k after d rfl hrun
  have hbefore : getRPCCalls.Meets (Undisturbed urls) before (rpcStart urls) := by
    rintro pre j k' post e rfl
    exact hmeets pre j k' (post ++ (i, k) :: after) e (by simp)
  have hknows := ((getRPCCalls_outline urls).run trivial
    (fun j => ⟨by simp [rpcStart], fun n rpc hl => by cases hl⟩)
    ((Tasks.run_restrict hbefore).trans hrun)).2 i
  obtain ⟨s', l', hstep, rfl⟩ := Tasks.turn_eq_some hturn
  obtain ⟨hm, -, -⟩ := getRPCCalls_step hstep
  simp only [Function.update_self] at hmsg
  subst hmsg
  -- a step that rejects comes from the test of the loop
  have hgivesUp : ∀ n, d.shared.manager.tryNext k.1 n = (s'.manager, .rejected msg) →
      d.shared.manager.rpcURLs.length ≤ n ∧ s'.manager = d.shared.manager ∧
        msg = "No healthy RPCs" := by
    intro n hnext
    rcases tryNext_cases d.shared.manager k.1 n with ⟨hle, heq⟩ | ⟨_, _, -, -, heq | ⟨-, heq⟩⟩ <;>
      rw [hnext] at heq
    · obtain ⟨hsame, hmsg⟩ := Prod.mk.inj heq
      exact ⟨hle, hsame, RpcCallAt.rejected.inj hmsg⟩
    · cases (Prod.mk.inj heq).2
    · cases (Prod.mk.inj heq).2
  generalize d.locals i = l at hguard hknows hm
  rcases getRPCStep_cases hm with ⟨rfl, hempty, -, -⟩ | ⟨n, rpc, -, -, hl⟩ |
    ⟨n, rpc, ok', -, -, -, hl⟩ | ⟨n, rpc, -, -, hl⟩ | ⟨rfl, hnext⟩ |
    ⟨n, rpc, rfl, hunhealthy, hnext⟩
  · exact absurd hempty hguard
  · cases hl
  · cases hl
  · cases hl
  · -- the array is not empty, so the first try is made
    exact absurd (List.length_eq_zero_iff.1 (Nat.le_zero.1 (hgivesUp 0 hnext).1)) hguard
  · obtain ⟨hle, hsame, hmsg⟩ := hgivesUp n hnext
    refine ⟨hmsg, fun url hurl => ?_⟩
    rw [hsame]
    rcases List.mem_cons.1 (hguard hunhealthy hle url hurl) with rfl | htried
    · exact hknows.unhealthy hunhealthy
    · exact hknows.tried url htried

/-- A call begins while another has the only URL out for its check, which then succeeds. -/
theorem onlyUrlOut_rejects : ¬ RejectsRightly ["https://zkevm-rpc.com"]
    [((0 : Fin 2), (0, true)), (1, (0, true)), (0, (0, true)), (0, (0, true))] := by
  intro h
  have hrejects := h [(0, (0, true))] 1 (0, true) [(0, (0, true)), (0, (0, true))] _ _
    "No RPCs in queue" rfl rfl rfl rfl
  exact absurd hrejects.1 (by decide)

/-- One call finds the only URL unhealthy and rejects. -/
theorem unhealthyUrl_rejects : RejectsRightly ["https://zkevm-rpc.com"]
    [((), (0, false)), ((), (0, false)), ((), (0, false)), ((), (0, false))] := by
  refine getRPC_rejects_rightly _ _ ?_
  refine Tasks.meets_cons.2 ⟨by simp [Undisturbed, rpcStart], fun d hd => ?_⟩
  obtain rfl := Option.some.inj hd
  iterate 2
    refine Tasks.meets_cons.2 ⟨trivial, fun d hd => ?_⟩
    obtain rfl := Option.some.inj hd
  -- the call gives up, and the only URL is the one it was handed
  exact Tasks.meets_cons.2 ⟨fun _ _ _ hurl => hurl, fun d hd => Tasks.meets_nil⟩

/-! ## One call after the other -/

/-- The call has not begun, or it has ended. -/
def RpcCallAt.rests (l : RpcCallAt) : Prop := l = .start ∨ l.finished = true

/-- A call on its own goes through the array: the URLs it put back in front were handed to it, and
no URL is missing, the one apart that is out for its check. -/
def Walking (urls tried rpcURLs : List String) : RpcCallAt → Prop
  | .checking numTries rpc | .checked numTries rpc _ =>
      (∀ url ∈ (rpc :: rpcURLs).take numTries, url ∈ rpc :: tried) ∧ urls ⊆ rpc :: rpcURLs
  | .cycled numTries rpc => (∀ url ∈ rpcURLs.take numTries, url ∈ rpc :: tried) ∧ urls ⊆ rpcURLs
  | _ => urls ⊆ rpcURLs

/-- While a call rests, no URL is missing. -/
theorem walking_rests {urls tried rpcURLs : List String} {l : RpcCallAt} (h : l.rests) :
    Walking urls tried rpcURLs l ↔ urls ⊆ rpcURLs := by
  rcases h with rfl | hfinished
  · exact Iff.rfl
  · cases l with
    | returned rpc => exact Iff.rfl
    | rejected msg => exact Iff.rfl
    | start | checking | checked | cycled => cases hfinished

/-- A call that has begun does not begin anew. -/
theorem getRPCStep_ne_start {m m' : RPCManager} {now : ℕ} {ok : Bool} {l l' : RpcCallAt}
    (h : m.getRPCStep now ok l = some (m', l')) : l' ≠ .start := by
  have hnext : ∀ numTries, m.tryNext now numTries = (m', l') → l' ≠ .start := by
    rintro numTries hnext rfl
    rcases tryNext_cases m now numTries with ⟨-, heq⟩ | ⟨_, _, -, -, heq | ⟨-, heq⟩⟩ <;>
      rw [hnext] at heq <;> cases heq
  rcases getRPCStep_cases h with ⟨-, -, -, rfl⟩ | ⟨n, rpc, -, -, rfl⟩ |
    ⟨n, rpc, ok', -, -, -, rfl⟩ | ⟨n, rpc, -, -, rfl⟩ | ⟨-, hgo⟩ | ⟨n, rpc, -, -, hgo⟩
  · simp
  · simp
  · simp
  · simp
  · exact hnext 0 hgo
  · exact hnext n hgo

/-- The walk goes on after the test of the loop. -/
theorem Walking.tryNext {urls tried tried' : List String} {m m' : RPCManager} {l' : RpcCallAt}
    {now numTries : ℕ} (hfront : ∀ url ∈ m.rpcURLs.take numTries, url ∈ tried)
    (hall : urls ⊆ m.rpcURLs) (hnext : m.tryNext now numTries = (m', l'))
    (htried : tried' = if l'.finished then [] else tried) :
    Walking urls tried' m'.rpcURLs l' := by
  rcases tryNext_cases m now numTries with ⟨-, heq⟩ | ⟨front, rpc, hurls, hlt, hcase⟩
  · rw [hnext] at heq
    cases heq
    exact hall
  · have hlength : numTries ≤ front.length := by
      rw [hurls, List.length_append, List.length_singleton] at hlt
      omega
    have htake : ∀ url ∈ (rpc :: front).take (numTries + 1), url ∈ rpc :: tried := by
      intro url hurl
      rw [List.take_succ_cons] at hurl
      rcases List.mem_cons.1 hurl with rfl | hurl
      · exact List.mem_cons_self
      · refine List.mem_cons_of_mem _ (hfront url ?_)
        rw [hurls, List.take_append_of_le_length hlength]
        exact hurl
    have hmissing : urls ⊆ rpc :: front := by
      intro url hurl
      have hmem := hall hurl
      rw [hurls] at hmem
      simpa [or_comm] using hmem
    rcases hcase with heq | ⟨-, heq⟩ <;> rw [hnext] at heq <;> cases heq <;> subst htried <;>
      exact ⟨htake, hmissing⟩

/-- The walk of a call over its own steps. -/
theorem Walking.own {urls tried : List String} {m m' : RPCManager} {l l' : RpcCallAt} {now : ℕ}
    {ok : Bool} (h : Walking urls tried m.rpcURLs l)
    (hstep : m.getRPCStep now ok l = some (m', l')) :
    Walking urls (triedAfter tried l l') m'.rpcURLs l' := by
  rcases getRPCStep_cases hstep with ⟨rfl, -, rfl, rfl⟩ | ⟨n, rpc, rfl, rfl, rfl⟩ |
    ⟨n, rpc, ok', rfl, hurls, -, rfl⟩ | ⟨n, rpc, rfl, rfl, rfl⟩ | ⟨rfl, hnext⟩ |
    ⟨n, rpc, rfl, -, hnext⟩
  · exact h
  · exact h
  · obtain ⟨hfront, hall⟩ := h
    rw [hurls]
    refine ⟨fun url hurl => ?_, hall⟩
    have hmem := hfront url hurl
    by_cases hrpc : url = rpc
    · exact hrpc ▸ List.mem_cons_self
    · simpa [triedAfter, RpcCallAt.finished, hrpc] using hmem
  · exact h.2
  · exact Walking.tryNext (fun url hurl => by simp at hurl) h hnext rfl
  · exact Walking.tryNext h.1 h.2 hnext rfl

/-- Where at most one call is under way: it walks, and the others have handed in what they
tried. -/
structure OneWalks (urls : List String) (c : Tasks.Config ι (RpcState ι) RpcCallAt) : Prop where
  rests : ∀ j, (c.locals j).rests → c.shared.tried j = []
  walks : ∀ i, (∀ j, j ≠ i → (c.locals j).rests) →
    Walking urls (c.shared.tried i) c.shared.manager.rpcURLs (c.locals i)

/-- A turn of the call that is under way. -/
theorem OneWalks.turn {urls : List String} {c c' : Tasks.Config ι (RpcState ι) RpcCallAt} {i : ι}
    {k : ℕ × Bool} (h : OneWalks urls c) (hothers : ∀ j, j ≠ i → (c.locals j).rests)
    (hturn : getRPCCalls.turn c i k = some c') : OneWalks urls c' := by
  obtain ⟨s', l', hstep, rfl⟩ := Tasks.turn_eq_some hturn
  obtain ⟨hm, htried, hframe⟩ := getRPCCalls_step hstep
  have hown := (h.walks i hothers).own hm
  rw [← htried] at hown
  constructor
  · intro j hj
    by_cases hji : j = i
    · subst hji
      simp only [Function.update_self] at hj
      rcases hj with hstart | hfinished
      · exact absurd hstart (getRPCStep_ne_start hm)
      · simp [htried, triedAfter, hfinished]
    · simp only [Function.update_of_ne hji] at hj
      exact (hframe j hji).trans (h.rests j hj)
  · intro j hrest
    by_cases hji : j = i
    · subst hji
      simpa using hown
    · -- both rest, so every URL is in the array
      have hi : l'.rests := by simpa using hrest i (Ne.symm hji)
      simp only [Function.update_of_ne hji]
      exact (walking_rests (hothers j hji)).2 ((walking_rests hi).1 hown)

/-- **Calls that do not overlap do not disturb each other.** -/
theorem undisturbed_of_serial (urls : List String) (hurls : urls ≠ [])
    (schedule : List (ι × (ℕ × Bool)))
    (hserial : getRPCCalls.Serial RpcCallAt.rests schedule (rpcStart urls)) :
    getRPCCalls.Meets (Undisturbed urls) schedule (rpcStart urls) := by
  refine Tasks.Serial.meets (P := OneWalks urls) ?_ (fun c c' i k h => h.turn) ?_ hserial
  · intro c i h hothers
    have hwalks := h.walks i hothers
    generalize c.locals i = l at hwalks
    cases l with
    | start =>
      rintro hempty
      exact hurls (List.subset_nil.1 (hempty ▸ hwalks))
    | checked n rpc ok =>
      cases ok with
      | false => trivial
      | true =>
        intro j hji
        rw [h.rests j (hothers j hji)]
        exact List.not_mem_nil
    | cycled n rpc =>
      intro _ hle url hurl
      have hmem := hwalks.2 hurl
      rw [← List.take_of_length_le hle] at hmem
      exact hwalks.1 url hmem
    | checking n rpc => trivial
    | returned rpc => trivial
    | rejected msg => trivial
  · exact ⟨fun j _ => rfl, fun i _ => List.Subset.refl _⟩

end TraderBackend
