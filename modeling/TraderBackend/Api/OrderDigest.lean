import Mathlib

/-!
# The answer to an order digest request

A client sends orders of one symbol, and gets for them what it needs to sign and post
them: digests, order ids and broker signatures, in three lists.

* **The brokers.**  `BrokerRemote.signOrder` asks a service and turns any error into an
  empty signature, which is all `BrokerNone.signOrder` has.
* **The answer.**  `orderDigest`, with its loop `signOrders`.  `signOrders_spec`: the
  lists are those of the orders with a signature.
* **The positions.**  `orderDigest_linesUp_iff`: the lists have an entry for every order
  at its position **if and only if** every order gets a signature.
-/

namespace TraderBackend

/-! ## The brokers -/

/-- The fields of a smart contract order that a broker is asked to sign. -/
structure SmartContractOrder where
  flags : ℕ
  iPerpetualId : ℕ
  traderAddr : String
  brokerAddr : String
  fAmount : ℤ
  fLimitPrice : ℤ
  fTriggerPrice : ℤ
  leverageTDR : ℕ
  iDeadline : ℕ
  executionTimestamp : ℕ
  deriving DecidableEq

/-- `order` of `reqData`. -/
structure SignOrderFields where
  flags : ℕ
  iPerpetualId : ℕ
  traderAddr : String
  brokerAddr : String
  fAmount : String
  fLimitPrice : String
  fTriggerPrice : String
  leverageTDR : ℕ
  iDeadline : ℕ
  executionTimestamp : ℕ
  deriving DecidableEq

/-- `reqData`. -/
structure SignOrderRequest where
  order : SignOrderFields
  chainId : ℕ
  deriving DecidableEq

/-- `orderFields` of a reply. -/
structure OrderFields where
  brokerFeeTbps : Option ℚ
  brokerAddr : Option String

/-- The data of a reply; what is missing is `undefined`. -/
structure SignOrderReply where
  brokerSignature : Option String
  orderDigest : Option String
  orderId : Option String
  orderFields : Option OrderFields

/-- What `signOrder` returns. -/
structure SignResult where
  sig : Option String
  digest : Option String
  orderId : Option String
  brokerFee : Option ℚ
  brokerAddr : Option String

/-- The result without a signature. -/
def SignResult.unsigned : SignResult := ⟨some "", some "", some "", some 0, some ""⟩

/-- `reqData` for an order. -/
def signOrderRequest (chainId : ℕ) (SCOrder : SmartContractOrder) : SignOrderRequest where
  order :=
    { flags := SCOrder.flags
      iPerpetualId := SCOrder.iPerpetualId
      traderAddr := SCOrder.traderAddr
      brokerAddr := SCOrder.brokerAddr
      fAmount := toString SCOrder.fAmount
      fLimitPrice := toString SCOrder.fLimitPrice
      fTriggerPrice := toString SCOrder.fTriggerPrice
      leverageTDR := SCOrder.leverageTDR
      iDeadline := SCOrder.iDeadline
      executionTimestamp := SCOrder.executionTimestamp }
  chainId := chainId

/-- `BrokerRemote.signOrder`; `post` is the service. -/
def BrokerRemote.signOrder (chainId : ℕ) (post : SignOrderRequest → Except String SignOrderReply)
    (SCOrder : SmartContractOrder) : SignResult :=
  match post (signOrderRequest chainId SCOrder) with
  | .error _ => .unsigned
  | .ok responseData =>
      match responseData.orderFields with
      -- reading a field of `undefined` throws, inside the `try`
      | none => .unsigned
      | some orderFields =>
          { sig := responseData.brokerSignature
            digest := responseData.orderDigest
            orderId := responseData.orderId
            brokerFee := orderFields.brokerFeeTbps
            brokerAddr := orderFields.brokerAddr }

/-- `BrokerNone.signOrder`. -/
def BrokerNone.signOrder (_SCOrder : SmartContractOrder) : SignResult := .unsigned

/-! ## The answer -/

/-- What a request asks of the SDK and of the broker, which is asked once for every order. -/
structure OrderEnv (Order : Type*) where
  symbol : Order → String
  createSmartContractOrder : Order → String → Except String SmartContractOrder
  getOrderBookAddress : String → Except String String
  signOrder : ℕ → SmartContractOrder → SignResult

/-- The variables of the loop. -/
structure SignedOrders where
  digests : List String
  orderIds : List String
  brokerSignatures : List (Option String)
  brokerFeeTbps : Option ℚ
  brokerAddr : Option String

/-- The answer. -/
structure OrderDigestResponse where
  digests : List String
  orderIds : List String
  OrderBookAddr : String
  brokerAddr : Option String
  brokerFeeTbps : Option ℚ
  brokerSignatures : List (Option String)

/-- `"0x" + text`. -/
def hexText (text : Option String) : String := "0x" ++ text.getD "undefined"

/-- The body of the loop behind the `continue`. -/
def SignedOrders.push (s : SignedOrders) (res : SignResult) : SignedOrders where
  digests := s.digests ++ [hexText res.digest]
  orderIds := s.orderIds ++ [hexText res.orderId]
  brokerSignatures := s.brokerSignatures ++ [res.sig]
  brokerFeeTbps := res.brokerFee
  brokerAddr := res.brokerAddr

section

variable {Order : Type*} (env : OrderEnv Order) (traderAddr : String)

/-- What the broker makes of order number `k`. -/
def OrderEnv.result (k : ℕ) (order : Order) : Except String SignResult :=
  (env.createSmartContractOrder order traderAddr).map (env.signOrder k)

/-- The loop of `orderDigest`, from order number `k` on. -/
def signOrders : ℕ → List Order → SignedOrders → Except String SignedOrders
  | _, [], s => .ok s
  | k, order :: orders, s =>
      match env.result traderAddr k order with
      | .error e => .error e
      | .ok res =>
          if res.sig = some "" then signOrders (k + 1) orders s
          else signOrders (k + 1) orders (s.push res)

/-- `orderDigest`. -/
def orderDigest (orders : List Order) : Except String OrderDigestResponse :=
  match orders with
  | [] => .error "Cannot read properties of undefined (reading 'symbol')"
  | first :: _ =>
      if orders.all fun order => decide (env.symbol order = env.symbol first) then
        match signOrders env traderAddr 0 orders ⟨[], [], [], some 0, some ""⟩ with
        | .error e => .error e
        | .ok s =>
            match env.getOrderBookAddress (env.symbol first) with
            | .error e => .error e
            | .ok obAddr =>
                .ok ⟨s.digests, s.orderIds, obAddr, s.brokerAddr, s.brokerFeeTbps,
                  s.brokerSignatures⟩
      else .error "orders must have the same symbol"

end

/-! ## The positions -/

section

variable {Order : Type*} {env : OrderEnv Order} {traderAddr : String}

/-- The results of the orders from number `k` on, one for each. -/
structure ResultsOf (env : OrderEnv Order) (traderAddr : String) (k : ℕ) (orders : List Order)
    (results : List SignResult) : Prop where
  length_eq : results.length = orders.length
  result : ∀ j order, orders[j]? = some order → ∃ res, results[j]? = some res ∧
    env.result traderAddr (k + j) order = .ok res

theorem ResultsOf.cons {k : ℕ} {order : Order} {orders : List Order} {res : SignResult}
    {results : List SignResult} (hres : env.result traderAddr k order = .ok res)
    (h : ResultsOf env traderAddr (k + 1) orders results) :
    ResultsOf env traderAddr k (order :: orders) (res :: results) where
  length_eq := by rw [List.length_cons, List.length_cons, h.length_eq]
  result := by
    intro j order' horder
    cases j with
    | zero =>
      obtain rfl := Option.some.inj horder
      exact ⟨res, rfl, hres⟩
    | succ j =>
      obtain ⟨res', hget, hres'⟩ := h.result j order' horder
      refine ⟨res', hget, ?_⟩
      rwa [Nat.add_comm j 1, ← Nat.add_assoc]

/-- The result has a signature, or at least no empty one. -/
def SignResult.signed (res : SignResult) : Bool := decide (res.sig ≠ some "")

/-- **The loop.**  It adds the results of the orders that have a signature. -/
theorem signOrders_spec {k : ℕ} {orders : List Order} {s s' : SignedOrders}
    (h : signOrders env traderAddr k orders s = .ok s') :
    ∃ results, ResultsOf env traderAddr k orders results ∧
      s'.digests = s.digests ++ (results.filter SignResult.signed).map (fun r => hexText r.digest) ∧
      s'.orderIds =
        s.orderIds ++ (results.filter SignResult.signed).map (fun r => hexText r.orderId) ∧
      s'.brokerSignatures =
        s.brokerSignatures ++ (results.filter SignResult.signed).map SignResult.sig := by
  induction orders generalizing k s with
  | nil =>
    obtain rfl := Except.ok.inj h
    exact ⟨[], ⟨rfl, by simp⟩, by simp, by simp, by simp⟩
  | cons order orders ih =>
    rw [signOrders] at h
    cases hres : env.result traderAddr k order with
    | error e =>
      rw [hres] at h
      cases h
    | ok res =>
      rw [hres] at h
      simp only at h
      split at h
      · rename_i hempty
        obtain ⟨results, hresults, hdigests, hids, hsigs⟩ := ih h
        have hunsigned : res.signed = false := by simp [SignResult.signed, hempty]
        refine ⟨res :: results, hresults.cons hres, ?_, ?_, ?_⟩
        · rw [hdigests, List.filter_cons_of_neg (by simp [hunsigned])]
        · rw [hids, List.filter_cons_of_neg (by simp [hunsigned])]
        · rw [hsigs, List.filter_cons_of_neg (by simp [hunsigned])]
      · rename_i hsig
        obtain ⟨results, hresults, hdigests, hids, hsigs⟩ := ih h
        have hsigned : res.signed = true := decide_eq_true hsig
        refine ⟨res :: results, hresults.cons hres, ?_, ?_, ?_⟩
        · rw [hdigests, List.filter_cons_of_pos hsigned, SignedOrders.push, List.map_cons,
            List.append_assoc, List.singleton_append]
        · rw [hids, List.filter_cons_of_pos hsigned, SignedOrders.push, List.map_cons,
            List.append_assoc, List.singleton_append]
        · rw [hsigs, List.filter_cons_of_pos hsigned, SignedOrders.push, List.map_cons,
            List.append_assoc, List.singleton_append]

/-- The lists of an answer. -/
theorem orderDigest_lists {orders : List Order} {resp : OrderDigestResponse}
    (h : orderDigest env traderAddr orders = .ok resp) :
    ∃ results, ResultsOf env traderAddr 0 orders results ∧
      resp.digests = (results.filter SignResult.signed).map (fun r => hexText r.digest) ∧
      resp.orderIds = (results.filter SignResult.signed).map (fun r => hexText r.orderId) ∧
      resp.brokerSignatures = (results.filter SignResult.signed).map SignResult.sig := by
  cases orders with
  | nil => cases h
  | cons first orders =>
    rw [orderDigest] at h
    split at h
    · cases hloop : signOrders env traderAddr 0 (first :: orders)
        ⟨[], [], [], some 0, some ""⟩ with
      | error e =>
        rw [hloop] at h
        cases h
      | ok s =>
        rw [hloop] at h
        simp only at h
        cases haddr : env.getOrderBookAddress (env.symbol first) with
        | error e =>
          rw [haddr] at h
          cases h
        | ok obAddr =>
          rw [haddr] at h
          obtain rfl := Except.ok.inj h
          exact signOrders_spec hloop
    · cases h

/-- The answer has an entry for every order, and entry `k` is that of order `k`. -/
structure LinesUp (env : OrderEnv Order) (traderAddr : String) (orders : List Order)
    (resp : OrderDigestResponse) : Prop where
  digests_length : resp.digests.length = orders.length
  orderIds_length : resp.orderIds.length = orders.length
  brokerSignatures_length : resp.brokerSignatures.length = orders.length
  entry : ∀ k order, orders[k]? = some order → ∃ res, env.result traderAddr k order = .ok res ∧
    resp.digests[k]? = some (hexText res.digest) ∧
    resp.orderIds[k]? = some (hexText res.orderId) ∧
    resp.brokerSignatures[k]? = some res.sig

/-- **When the answer lines up with the request.**  Exactly if the broker leaves no order without
a signature. -/
theorem orderDigest_linesUp_iff {orders : List Order} {resp : OrderDigestResponse}
    (h : orderDigest env traderAddr orders = .ok resp) :
    LinesUp env traderAddr orders resp ↔
      ∀ k order, orders[k]? = some order → ∀ res, env.result traderAddr k order = .ok res →
        res.sig ≠ some "" := by
  obtain ⟨results, hresults, hdigests, hids, hsigs⟩ := orderDigest_lists h
  constructor
  · intro hlines k order horder res hres
    have hlength := hlines.digests_length
    rw [hdigests, List.length_map, ← hresults.length_eq, List.length_filter_eq_length_iff]
      at hlength
    obtain ⟨res', hget, hres'⟩ := hresults.result k order horder
    rw [Nat.zero_add, hres] at hres'
    obtain rfl := Except.ok.inj hres'
    exact of_decide_eq_true (hlength res (List.mem_of_getElem? hget))
  · intro hsigned
    have hall : results.filter SignResult.signed = results := by
      rw [List.filter_eq_self]
      intro res hmem
      obtain ⟨k, hk, hget⟩ := List.getElem_of_mem hmem
      have hk' : k < orders.length := hresults.length_eq ▸ hk
      obtain ⟨res', hget', hres'⟩ :=
        hresults.result k orders[k] (List.getElem?_eq_getElem hk')
      rw [List.getElem?_eq_getElem hk, hget] at hget'
      obtain rfl := Option.some.inj hget'
      rw [Nat.zero_add] at hres'
      exact decide_eq_true (hsigned k orders[k] (List.getElem?_eq_getElem hk') res hres')
    rw [hall] at hdigests hids hsigs
    refine ⟨?_, ?_, ?_, fun k order horder => ?_⟩
    · rw [hdigests, List.length_map, hresults.length_eq]
    · rw [hids, List.length_map, hresults.length_eq]
    · rw [hsigs, List.length_map, hresults.length_eq]
    · obtain ⟨res, hget, hres⟩ := hresults.result k order horder
      rw [Nat.zero_add] at hres
      refine ⟨res, hres, ?_, ?_, ?_⟩
      · rw [hdigests, List.getElem?_map, hget, Option.map_some]
      · rw [hids, List.getElem?_map, hget, Option.map_some]
      · rw [hsigs, List.getElem?_map, hget, Option.map_some]

end

/-- Orders of one symbol that are told apart by their amounts, and a service that answers the
requests for which `up` holds. -/
def relayEnv (up : ℕ → Bool) : OrderEnv ℤ where
  symbol _ := "MATIC-USD-MATIC"
  createSmartContractOrder amount traderAddr :=
    .ok ⟨0, 100001, traderAddr, "0xb0", amount, 0, 0, 200, 0, 0⟩
  getOrderBookAddress _ := .ok "0x0b"
  signOrder k := BrokerRemote.signOrder 1 fun request =>
    if up k then
      .ok ⟨some ("sig" ++ request.order.fAmount), some ("digest" ++ request.order.fAmount),
        some ("id" ++ request.order.fAmount), some ⟨some 60, some "0xb0"⟩⟩
    else .error "timeout of 1000ms exceeded"

/-- The answer of a service that is up. -/
theorem relay_linesUp :
    ∃ resp, orderDigest (relayEnv fun _ => true) "0xa0" [5, -7] = .ok resp ∧
      LinesUp (relayEnv fun _ => true) "0xa0" [5, -7] resp := by
  refine ⟨_, rfl, (orderDigest_linesUp_iff rfl).2 ?_⟩
  intro k order horder res hres
  obtain rfl := Except.ok.inj hres
  intro hempty
  have htext : "sig" ++ toString order = "" := Option.some.inj hempty
  have hlength := congrArg String.length htext
  rw [String.length_append] at hlength
  have hthree : "sig".length = 3 := by decide
  have hzero : "".length = 0 := by decide
  omega

/-- The first of two requests fails: what the client finds first belongs to the second order. -/
theorem relay_skips_order :
    ∃ resp, orderDigest (relayEnv fun k => decide (k = 1)) "0xa0" [5, -7] = .ok resp ∧
      resp.digests = ["0xdigest-7"] ∧ resp.orderIds = ["0xid-7"] ∧
        resp.brokerSignatures = [some "sig-7"] ∧
        ¬ LinesUp (relayEnv fun k => decide (k = 1)) "0xa0" [5, -7] resp := by
  refine ⟨_, rfl, rfl, rfl, rfl, fun hlines => ?_⟩
  exact absurd hlines.digests_length (by decide)

end TraderBackend
