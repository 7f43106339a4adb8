import TraderBackend.Api.RpcManager

/-!
# RPC nodes in turn

Calls of `getRPC` one after the other, healthy or not: `cycleRPCs` takes the last URL, checks it
when its last check is too old, and puts it in front.

* **The code.**  `cycle` and `getRPC` from beginning to end, with what the environment decides at
  each visit, and a record of the checks that only statements look at.  `getRPC_steps` says
  that a healthy call is the one of the overlapping calls, left alone.
* **One visit.**  `cycle_spec`: the last URL comes to the front, and what is known about it is
  its latest check.
* **One call.**  `getRPCLoop_healthy`, by induction on the URLs not yet visited: a call goes through
  them from the back and stops at the first healthy one.
* **Any calls.**  `rpc_rotation`: the array stays a rotation, a healthy call rejects only when
  all latest checks failed, and as many careless calls as there are URLs return each
  position once.
-/

namespace TraderBackend

/-! ## The code -/

/-- What the environment decides at a visit: the time at its beginning, how the network detection
ends, and the time when it has ended. -/
structure RpcVisit where
  now : ℕ
  ok : Bool
  later : ℕ

/-- A call: its argument, and the visits it will make. -/
structure GetRpcCall where
  healthy : Bool
  visits : ℕ → RpcVisit

/-- The manager with the checks made so far, the latest first. -/
structure RpcLog where
  manager : RPCManager
  checks : List (String × Bool)

/-- How the latest check of a URL ended. -/
def RpcLog.latestCheck (s : RpcLog) (url : String) : Option Bool := s.checks.lookup url

/-- What a call leaves: the URLs it was handed, with what the latest check of each had said then,
and how it ended (`none`: not yet). -/
structure GetRpcResult where
  state : RpcLog
  visited : List (String × Option Bool)
  outcome : Option (Except String String)

namespace RpcLog

/-- `cycleRPCs`, from its beginning to its end. -/
def cycle (s : RpcLog) (v : RpcVisit) : Option (RpcLog × String) :=
  match s.manager.rpcURLs.getLast? with
  | none => none
  | some rpc =>
    let taken := { s.manager with rpcURLs := s.manager.rpcURLs.dropLast }
    if s.manager.needsCheck v.now rpc then
      let checked := { taken with
        healthy := taken.healthy.set rpc v.ok
        lastCheck := taken.lastCheck.set rpc v.later }
      some (⟨checked.putBack rpc, (rpc, v.ok) :: s.checks⟩, rpc)
    else some (⟨taken.putBack rpc, s.checks⟩, rpc)

/-- The loop of `getRPC` for some turns. -/
def getRPCLoop (c : GetRpcCall) : ℕ → ℕ → RpcLog → GetRpcResult
  | 0, _, s => ⟨s, [], none⟩
  | turns + 1, numTries, s =>
    if numTries < s.manager.rpcURLs.length then
      match s.cycle (c.visits numTries) with
      | none => ⟨s, [], some (.error "No RPCs in queue")⟩
      | some (s', rpc) =>
        if !c.healthy || s'.manager.healthy.get? rpc == some true then
          ⟨s', [(rpc, s'.latestCheck rpc)], some (.ok rpc)⟩
        else
          let rest := getRPCLoop c turns (numTries + 1) s'
          ⟨rest.state, (rpc, s'.latestCheck rpc) :: rest.visited, rest.outcome⟩
    else ⟨s, [], some (.error "No healthy RPCs")⟩

/-- `getRPC`; as many turns as there are URLs, and the test that ends the loop, are enough. -/
def getRPC (s : RpcLog) (c : GetRpcCall) : GetRpcResult :=
  if s.manager.rpcURLs.length < 1 then ⟨s, [], some (.error "No RPCs in queue")⟩
  else getRPCLoop c (s.manager.rpcURLs.length + 1) 0 s

/-- Calls one after the other. -/
def run (s : RpcLog) (calls : List GetRpcCall) : RpcLog :=
  calls.foldl (fun s c => (s.getRPC c).state) s

/-- What they return. -/
def outcomes : RpcLog → List GetRpcCall → List (Option (Except String String))
  | _, [] => []
  | s, c :: calls => (s.getRPC c).outcome :: outcomes (s.getRPC c).state calls

/-- `new RPCManager(urls)`. -/
def fresh (urls : List String) : RpcLog := ⟨⟨urls, OrdMap.empty, OrdMap.empty⟩, []⟩

/-! ## The calls of the overlapping runs -/

/-- Steps of one call of `getRPC(true)` while the others rest. -/
def CallSteps (p q : RPCManager × RpcCallAt) : Prop :=
  Relation.ReflTransGen
    (fun p q : RPCManager × RpcCallAt => ∃ now ok, p.1.getRPCStep now ok p.2 = some q) p q

/-- Where a call has come to when it has ended so. -/
def endOf : Except String String → RpcCallAt
  | .ok rpc => .returned rpc
  | .error msg => .rejected msg

/-- A visit in steps: at most the detection of the network is waited for. -/
theorem cycle_steps {s s' : RpcLog} {v : RpcVisit} {rpc : String} (h : s.cycle v = some (s', rpc))
    (n : ℕ) : CallSteps (s.manager.cycleRPCs v.now n) (s'.manager, .cycled n rpc) := by
  cases hlast : s.manager.rpcURLs.getLast? with
  | none =>
    rw [cycle, hlast] at h
    cases h
  | some rpc' =>
    rw [cycle, hlast] at h
    rw [RPCManager.cycleRPCs, hlast]
    simp only at h ⊢
    by_cases hcheck : s.manager.needsCheck v.now rpc' = true
    · rw [if_pos hcheck] at h ⊢
      cases h
      refine Relation.ReflTransGen.head ⟨v.now, v.ok, rfl⟩ ?_
      exact Relation.ReflTransGen.single ⟨v.later, v.ok, rfl⟩
    · rw [if_neg hcheck] at h ⊢
      cases h
      exact Relation.ReflTransGen.refl

/-- Only an empty array hands out nothing. -/
theorem rpcURLs_of_cycle_none {s : RpcLog} {v : RpcVisit} (h : s.cycle v = none) :
    s.manager.rpcURLs = [] := by
  cases hlast : s.manager.rpcURLs.getLast? with
  | none => exact List.getLast?_eq_none_iff.1 hlast
  | some rpc =>
    rw [cycle, hlast] at h
    simp only at h
    split at h <;> cases h

/-- The loop in steps. -/
theorem getRPCLoop_steps {c : GetRpcCall} (hc : c.healthy = true) {turns : ℕ} :
    ∀ {numTries : ℕ} {s : RpcLog} {out : Except String String},
      (getRPCLoop c turns numTries s).outcome = some out →
      CallSteps (s.manager.tryNext (c.visits numTries).now numTries)
        ((getRPCLoop c turns numTries s).state.manager, endOf out) := by
  induction turns with
  | zero =>
    intro numTries s out hout
    cases hout
  | succ turns ih =>
    intro numTries s out hout
    rw [getRPCLoop] at hout ⊢
    rw [RPCManager.tryNext]
    by_cases hlt : numTries < s.manager.rpcURLs.length
    · rw [if_pos hlt] at hout ⊢
      rw [if_pos hlt]
      cases hcycle : s.cycle (c.visits numTries) with
      | none =>
        rw [rpcURLs_of_cycle_none hcycle] at hlt
        exact absurd hlt (Nat.not_lt_zero _)
      | some visit =>
        obtain ⟨s', rpc⟩ := visit
        rw [hcycle] at hout
        simp only [hc, Bool.not_true, Bool.false_or, beq_iff_eq] at hout ⊢
        have hvisit := cycle_steps hcycle (numTries + 1)
        by_cases hok : s'.manager.healthy.get? rpc = some true
        · rw [if_pos hok] at hout ⊢
          cases hout
          refine Relation.ReflTransGen.tail hvisit ⟨0, true, ?_⟩
          simp only [RPCManager.getRPCStep, if_pos hok]
          rfl
        · rw [if_neg hok] at hout ⊢
          refine Relation.ReflTransGen.trans hvisit (Relation.ReflTransGen.head ?_ (ih hout))
          refine ⟨(c.visits (numTries + 1)).now, true, ?_⟩
          simp only [RPCManager.getRPCStep, if_neg hok]
    · rw [if_neg hlt] at hout ⊢
      rw [if_neg hlt]
      cases hout
      exact Relation.ReflTransGen.refl

/-- **One model, not two.**  A healthy call here is a call of the overlapping runs, left alone. -/
theorem getRPC_steps {s : RpcLog} {c : GetRpcCall} (hc : c.healthy = true)
    {out : Except String String} (hout : (s.getRPC c).outcome = some out) :
    CallSteps (s.manager, .start) ((s.getRPC c).state.manager, endOf out) := by
  unfold getRPC at hout ⊢
  by_cases hempty : s.manager.rpcURLs.length < 1
  · rw [if_pos hempty] at hout ⊢
    cases hout
    refine Relation.ReflTransGen.single ⟨0, true, ?_⟩
    simp only [RPCManager.getRPCStep, if_pos hempty]
    rfl
  · rw [if_neg hempty] at hout ⊢
    refine Relation.ReflTransGen.head ?_ (getRPCLoop_steps hc hout)
    refine ⟨(c.visits 0).now, true, ?_⟩
    simp only [RPCManager.getRPCStep, if_neg hempty]

/-! ## One visit -/

/-- What the manager knows are the latest checks. -/
def Recorded (s : RpcLog) : Prop := ∀ url, s.manager.healthy.get? url = s.latestCheck url

variable {s s' : RpcLog} {v : RpcVisit} {c : GetRpcCall}

/-- **One visit.**  Nothing changes for the other URLs. -/
theorem cycle_spec (h : s.Recorded) {front : List String} {rpc : String}
    (hurls : s.manager.rpcURLs = front ++ [rpc]) :
    ∃ s', s.cycle v = some (s', rpc) ∧ s'.manager.rpcURLs = rpc :: front ∧ s'.Recorded ∧
      (s'.latestCheck rpc).isSome ∧
      ∀ url, url ≠ rpc → s'.latestCheck url = s.latestCheck url := by
  have hlast : s.manager.rpcURLs.getLast? = some rpc := by
    rw [hurls, List.getLast?_concat]
  have hfront : s.manager.rpcURLs.dropLast = front := by
    rw [hurls, List.dropLast_concat]
  unfold cycle
  rw [hlast, hfront]
  simp only
  by_cases hcheck : s.manager.needsCheck v.now rpc = true
  · rw [if_pos hcheck]
    refine ⟨_, rfl, rfl, ?_, ?_, ?_⟩
    · intro url
      have hset := OrdMap.get?_set s.manager.healthy rpc url v.ok
      have hold := h url
      unfold latestCheck at hold ⊢
      rw [List.lookup_cons]
      show (s.manager.healthy.set rpc v.ok).get? url = _
      rw [hset]
      by_cases hurl : rpc = url
      · rw [if_pos hurl, hurl, beq_self_eq_true]
      · rw [if_neg hurl, beq_false_of_ne (Ne.symm hurl), hold]
    · simp [latestCheck]
    · intro url hurl
      rw [latestCheck, List.lookup_cons, beq_false_of_ne hurl, latestCheck]
  · rw [if_neg hcheck]
    refine ⟨_, rfl, rfl, h, ?_, fun url _ => rfl⟩
    rw [Bool.not_eq_true, RPCManager.needsCheck, Bool.or_eq_false_iff] at hcheck
    have hsome := Option.isNone_eq_false_iff.1 hcheck.1
    rw [h rpc] at hsome
    exact hsome

/-! ## One call -/

/-- **A healthy call** that has been handed the URLs `tried` and found them unhealthy goes through
the others from the back.  The induction is on these. -/
theorem getRPCLoop_healthy (hc : c.healthy = true) (rest : List String) :
    ∀ (tried : List String) (turns : ℕ) (s : RpcLog), s.Recorded →
      s.manager.rpcURLs = tried ++ rest → rest.length < turns →
      (∀ url ∈ tried, s.latestCheck url = some false) →
      let r := getRPCLoop c turns tried.length s
      r.state.Recorded ∧ (r.state.manager.rpcURLs ~r (tried ++ rest)) ∧
        ((∃ rpc refused, r.outcome = some (.ok rpc) ∧ r.state.latestCheck rpc = some true ∧
            r.visited = refused.map (fun url => (url, some false)) ++ [(rpc, some true)] ∧
            (refused ++ [rpc]) <+: rest.reverse) ∨
          (r.outcome = some (.error "No healthy RPCs") ∧
            r.visited = rest.reverse.map (fun url => (url, some false)) ∧
            ∀ url ∈ tried ++ rest, r.state.latestCheck url = some false)) := by
  induction rest using List.reverseRecOn with
  | nil =>
    intro tried turns s hs hurls hturns htried
    obtain ⟨turns, rfl⟩ := Nat.exists_eq_succ_of_ne_zero (Nat.ne_of_gt hturns)
    have hlength : ¬ tried.length < s.manager.rpcURLs.length := by
      rw [hurls, List.append_nil]
      exact lt_irrefl _
    have hloop : getRPCLoop c (turns + 1) tried.length s =
        ⟨s, [], some (.error "No healthy RPCs")⟩ := by
      rw [getRPCLoop, if_neg hlength]
    rw [List.append_nil] at hurls ⊢
    rw [hloop]
    exact ⟨hs, hurls ▸ List.IsRotated.refl _, Or.inr ⟨rfl, rfl, htried⟩⟩
  | append_singleton front rpc ih =>
    intro tried turns s hs hurls hturns htried
    obtain ⟨turns, rfl⟩ := Nat.exists_eq_succ_of_ne_zero (Nat.ne_of_gt (Nat.zero_lt_of_lt hturns))
    have hlength : tried.length < s.manager.rpcURLs.length := by
      rw [hurls, List.length_append, List.length_append, List.length_singleton]
      omega
    have hurls' : s.manager.rpcURLs = (tried ++ front) ++ [rpc] := by
      rw [hurls, List.append_assoc]
    obtain ⟨s', hcycle, hurls₁, hs', hknown, hothers⟩ :=
      cycle_spec (v := c.visits tried.length) hs hurls'
    have hrotated : ((rpc :: tried) ++ front) ~r (tried ++ (front ++ [rpc])) := by
      rw [← List.append_assoc, List.cons_append]
      exact (List.isRotated_concat rpc (tried ++ front)).symm
    simp only [getRPCLoop, if_pos hlength, hcycle, hc, Bool.not_true, Bool.false_or,
      beq_iff_eq, hs' rpc]
    by_cases hok : s'.latestCheck rpc = some true
    · rw [if_pos hok, hok]
      refine ⟨hs', ?_, Or.inl ⟨rpc, [], rfl, hok, rfl, ?_⟩⟩
      · rw [hurls₁]
        exact hrotated
      · rw [List.reverse_append]
        exact List.prefix_append [rpc] front.reverse
    · rw [if_neg hok]
      have hfail : s'.latestCheck rpc = some false := by
        obtain ⟨b, hb⟩ := Option.isSome_iff_exists.1 hknown
        cases b with
        | true => exact absurd hb hok
        | false => exact hb
      have htried' : ∀ url ∈ rpc :: tried, s'.latestCheck url = some false := by
        intro url hurl
        by_cases heq : url = rpc
        · rw [heq]
          exact hfail
        · rw [hothers url heq]
          exact htried url ((List.mem_cons.1 hurl).resolve_left heq)
      have hlength' : front.length < turns := by
        rw [List.length_append, List.length_singleton] at hturns
        omega
      obtain ⟨hrecorded, hrot, hend⟩ := ih (rpc :: tried) turns s' hs' hurls₁ hlength' htried'
      rw [List.length_cons] at hrecorded hrot hend
      refine ⟨hrecorded, hrot.trans hrotated, ?_⟩
      rw [hfail, List.reverse_append]
      rcases hend with ⟨rpc', refused, hout, hlatest, hvisited, hpre⟩ | ⟨hout, hvisited, hall⟩
      · refine Or.inl ⟨rpc', rpc :: refused, hout, hlatest, ?_, ?_⟩
        · rw [hvisited]
          rfl
        · exact List.cons_prefix_cons.2 ⟨rfl, hpre⟩
      · refine Or.inr ⟨hout, ?_, ?_⟩
        · rw [hvisited]
          rfl
        · intro url hurl
          exact hall url (hrotated.mem_iff.2 hurl)

theorem getRPC_of_empty (hurls : s.manager.rpcURLs = []) (c : GetRpcCall) :
    s.getRPC c = ⟨s, [], some (.error "No RPCs in queue")⟩ := by
  rw [getRPC, hurls, List.length_nil, if_pos Nat.one_pos]

theorem getRPC_of_ne_nil (hurls : s.manager.rpcURLs ≠ []) (c : GetRpcCall) :
    s.getRPC c = getRPCLoop c (s.manager.rpcURLs.length + 1) 0 s := by
  have hlength := List.length_pos_iff.2 hurls
  rw [getRPC, if_neg (by omega)]

/-- **A healthy call** on a manager between calls. -/
theorem getRPC_healthy (hs : s.Recorded) (hurls : s.manager.rpcURLs ≠ [])
    (hc : c.healthy = true) :
    (s.getRPC c).state.Recorded ∧ ((s.getRPC c).state.manager.rpcURLs ~r s.manager.rpcURLs) ∧
      ((∃ rpc refused, (s.getRPC c).outcome = some (.ok rpc) ∧
          (s.getRPC c).state.latestCheck rpc = some true ∧
          (s.getRPC c).visited = refused.map (fun url => (url, some false)) ++ [(rpc, some true)] ∧
          (refused ++ [rpc]) <+: s.manager.rpcURLs.reverse) ∨
        ((s.getRPC c).outcome = some (.error "No healthy RPCs") ∧
          (s.getRPC c).visited = s.manager.rpcURLs.reverse.map (fun url => (url, some false)) ∧
          ∀ url ∈ s.manager.rpcURLs, (s.getRPC c).state.latestCheck url = some false)) := by
  rw [getRPC_of_ne_nil hurls]
  exact getRPCLoop_healthy hc s.manager.rpcURLs [] _ s hs rfl (Nat.lt_succ_self _)
    (fun url hurl => absurd hurl List.not_mem_nil)

/-- **A careless call** returns the last URL. -/
theorem getRPC_careless (hs : s.Recorded) {front : List String} {rpc : String}
    (hurls : s.manager.rpcURLs = front ++ [rpc]) (hc : c.healthy = false) :
    (s.getRPC c).outcome = some (.ok rpc) ∧ (s.getRPC c).state.Recorded ∧
      (s.getRPC c).state.manager.rpcURLs = rpc :: front := by
  have hne : s.manager.rpcURLs ≠ [] := by
    rw [hurls]
    exact List.append_ne_nil_of_right_ne_nil front (List.cons_ne_nil rpc [])
  obtain ⟨s', hcycle, hurls', hs', -⟩ := cycle_spec (v := c.visits 0) hs hurls
  have hloop : s.getRPC c = ⟨s', [(rpc, s'.latestCheck rpc)], some (.ok rpc)⟩ := by
    rw [getRPC_of_ne_nil hne, getRPCLoop, if_pos (List.length_pos_iff.2 hne), hcycle]
    simp only [hc, Bool.not_false, Bool.true_or, if_true]
  rw [hloop]
  exact ⟨rfl, hs', hurls'⟩

/-! ## Any calls -/

/-- Every call leaves a rotation of the array. -/
theorem getRPC_rotated (hs : s.Recorded) (c : GetRpcCall) :
    (s.getRPC c).state.Recorded ∧ ((s.getRPC c).state.manager.rpcURLs ~r s.manager.rpcURLs) := by
  rcases List.eq_nil_or_concat' s.manager.rpcURLs with hnil | ⟨front, rpc, hurls⟩
  · rw [getRPC_of_empty hnil]
    exact ⟨hs, List.IsRotated.refl _⟩
  · cases hc : c.healthy with
    | true =>
      have hne : s.manager.rpcURLs ≠ [] := by
        rw [hurls]
        exact List.append_ne_nil_of_right_ne_nil front (List.cons_ne_nil rpc [])
      obtain ⟨hrecorded, hrot, -⟩ := getRPC_healthy hs hne hc
      exact ⟨hrecorded, hrot⟩
    | false =>
      obtain ⟨-, hrecorded, hurls'⟩ := getRPC_careless hs hurls hc
      refine ⟨hrecorded, ?_⟩
      rw [hurls', hurls]
      exact (List.isRotated_concat rpc front).symm

theorem run_rotated (hs : s.Recorded) (calls : List GetRpcCall) :
    (s.run calls).Recorded ∧ ((s.run calls).manager.rpcURLs ~r s.manager.rpcURLs) := by
  induction calls generalizing s with
  | nil => exact ⟨hs, List.IsRotated.refl _⟩
  | cons c calls ih =>
    obtain ⟨hrecorded, hrot⟩ := getRPC_rotated hs c
    obtain ⟨hrecorded', hrot'⟩ := ih hrecorded
    exact ⟨hrecorded', hrot'.trans hrot⟩

theorem recorded_fresh (urls : List String) : (fresh urls).Recorded := fun _ => rfl

/-- Careless calls go through the array from the back. -/
theorem outcomes_careless (rest : List String) :
    ∀ (tried : List String) (s : RpcLog) (calls : List GetRpcCall), s.Recorded →
      s.manager.rpcURLs = tried ++ rest → calls.length = rest.length →
      (∀ c ∈ calls, c.healthy = false) →
      s.outcomes calls = rest.reverse.map fun rpc => some (.ok rpc) := by
  induction rest using List.reverseRecOn with
  | nil =>
    intro tried s calls _ _ hlength _
    obtain rfl := List.length_eq_zero_iff.1 hlength
    rfl
  | append_singleton front rpc ih =>
    intro tried s calls hs hurls hlength hcareless
    cases calls with
    | nil =>
      rw [List.length_append, List.length_singleton, List.length_nil] at hlength
      omega
    | cons c calls =>
      rw [← List.append_assoc] at hurls
      obtain ⟨hout, hs', hurls'⟩ :=
        getRPC_careless hs hurls (hcareless c List.mem_cons_self)
      have hlength' : calls.length = front.length := by
        rw [List.length_append, List.length_singleton, List.length_cons] at hlength
        omega
      have hrest := ih (rpc :: tried) (s.getRPC c).state calls hs' hurls' hlength'
        fun d hd => hcareless d (List.mem_cons_of_mem c hd)
      rw [outcomes, hout, hrest, List.reverse_append]
      rfl

/-- **RPC nodes in turn.**  After any calls the array is a rotation of the URLs.  A healthy call is
handed URLs from the back, each position at most once; it returns the first one whose latest
check succeeded, and rejects exactly when the latest check of every URL failed.  As many
careless calls as there are URLs return each position once. -/
theorem rpc_rotation (urls : List String) (calls : List GetRpcCall) :
    (((fresh urls).run calls).manager.rpcURLs ~r urls) ∧
      (∀ c, c.healthy = true →
        ((((fresh urls).run calls).getRPC c).visited.map Prod.fst <+:
            ((fresh urls).run calls).manager.rpcURLs.reverse) ∧
          (((fresh urls).run calls).getRPC c).outcome.isSome ∧
          (∀ rpc, (((fresh urls).run calls).getRPC c).outcome = some (.ok rpc) →
            ∃ refused : List String, (((fresh urls).run calls).getRPC c).visited =
              refused.map (fun url => (url, some false)) ++ [(rpc, some true)]) ∧
          ((∃ err, (((fresh urls).run calls).getRPC c).outcome = some (.error err)) ↔
            ∀ url ∈ urls,
              (((fresh urls).run calls).getRPC c).state.latestCheck url = some false)) ∧
      ∀ careless : List GetRpcCall, careless.length = urls.length →
        (∀ c ∈ careless, c.healthy = false) →
        ((fresh urls).run calls).outcomes careless =
          ((fresh urls).run calls).manager.rpcURLs.reverse.map fun rpc => some (.ok rpc) := by
  obtain ⟨hs, hrot⟩ := run_rotated (recorded_fresh urls) calls
  generalize (fresh urls).run calls = s at hs hrot
  have hrot : s.manager.rpcURLs ~r urls := hrot
  refine ⟨hrot, ?_, ?_⟩
  · intro c hc
    by_cases hurls : s.manager.rpcURLs = []
    · -- without URLs nothing is handed out, and there is no URL to have failed
      have hempty : urls = [] := by
        rw [hurls] at hrot
        exact List.isRotated_nil_iff.1 hrot.symm
      rw [getRPC_of_empty hurls, hempty]
      refine ⟨List.nil_prefix, rfl, ?_, ⟨fun _ url hurl => absurd hurl List.not_mem_nil,
        fun _ => ⟨_, rfl⟩⟩⟩
      intro rpc hout
      cases hout
    · obtain ⟨-, -, hend⟩ := getRPC_healthy hs hurls hc
      rcases hend with ⟨rpc, refused, hout, hlatest, hvisited, hpre⟩ | ⟨hout, hvisited, hall⟩
      · have hmem : rpc ∈ urls := by
          have hlast : rpc ∈ refused ++ [rpc] := List.mem_append_right _ List.mem_cons_self
          exact hrot.mem_iff.1 (List.mem_reverse.1 (hpre.subset hlast))
        refine ⟨?_, ?_, ?_, ?_⟩
        · rw [hvisited, List.map_append, List.map_map, List.map_singleton]
          simpa [Function.comp_def] using hpre
        · rw [hout]
          rfl
        · intro rpc' hout'
          rw [hout] at hout'
          cases hout'
          exact ⟨refused, hvisited⟩
        · constructor
          · rintro ⟨err, herr⟩
            rw [hout] at herr
            cases herr
          · intro hfailed
            rw [hfailed rpc hmem] at hlatest
            cases hlatest
      · refine ⟨?_, ?_, ?_, ?_⟩
        · rw [hvisited, List.map_map]
          simp [Function.comp_def]
        · rw [hout]
          rfl
        · intro rpc' hout'
          rw [hout] at hout'
          cases hout'
        · constructor
          · intro _ url hurl
            exact hall url (hrot.mem_iff.2 hurl)
          · intro _
            exact ⟨_, hout⟩
  · intro careless hlength hcareless
    refine outcomes_careless s.manager.rpcURLs [] s careless hs rfl ?_ hcareless
    rw [hlength, hrot.perm.length_eq]

end RpcLog

end TraderBackend
