import TraderBackend.Lib.JsNumber
import TraderBackend.Lib.OrdMap

/-!
# The fee of a trader

`queryFee` adds the fee of the exchange and that of the broker, and keeps the sum in
Redis for a day.  `BrokerRemote` asks a service for the broker's fee; the last number it
got, whoever it was for, is what it returns when the service does not answer.

* **The two fees.**  `getBrokerAddress`, `getBrokerFeeTBps`, `queryFee`.  The model keeps
  for every fee which report of the service it comes from, and for whom a cached fee
  was written; no decision depends on either.
* **One call.**  `told` are the two fees a call is told for its trader, from its own requests
  alone; `keepsOwn_iff`, with the step lemma `keepsOwn_of_answered`.
* **Whose fee it is.**  `fees_own_iff`: every fee of a run is the trader's own **if and
  only if** the service answers every request with a number and no call meets a cached
  fee of somebody else.
* **Addresses without a colon.**  `answered_run_iff`: for them the answers of the service
  are all that matters, since the keys tell the traders apart.
-/

namespace TraderBackend

/-! ## The two fees -/

/-- A number the service has reported for a trader. -/
structure BrokerReport where
  traderAddr : String
  fee : ℚ
  deriving DecidableEq

/-- The field `brokerFee`. -/
structure BrokerFee where
  /-- Before the first reply it is undefined. -/
  value : Option JsNumber
  /-- The report it comes from. -/
  source : Option BrokerReport

/-- A fee in Redis. -/
structure CachedFee where
  text : String
  /-- In seconds. -/
  expires : ℕ
  /-- The report it comes from. -/
  source : Option BrokerReport
  /-- The trader it was written for. -/
  writtenFor : String

/-- The fields of `BrokerRemote` and the fees in Redis. -/
structure FeeState where
  /-- It is undefined if a reply had none. -/
  brokerAddr : Option String
  brokerFee : BrokerFee
  cache : OrdMap String CachedFee

/-- A fresh client, and no fee in Redis. -/
def FeeState.init : FeeState := ⟨some "", ⟨none, none⟩, OrdMap.empty⟩

/-- A call of `queryFee` with what it would be told. -/
structure FeeCall where
  traderAddr : String
  poolSymbol : String
  /-- In seconds. -/
  now : ℕ
  /-- The address in the reply of the service, unless it fails. -/
  addressReply : Option (Option String)
  /-- `queryExchangeFee` for the broker address. -/
  queryExchangeFee : Option String → Except String (Option ℚ)
  /-- `Number(data.BrokerFeeTbps)` of the reply of the service, unless it fails. -/
  feeReply : Option JsNumber

/-- `getBrokerAddress`. -/
def FeeState.getBrokerAddress (s : FeeState) (c : FeeCall) : FeeState :=
  if s.brokerAddr = some "" then
    match c.addressReply with
    | none => s
    | some addr => { s with brokerAddr := addr }
  else s

/-- The report in a reply. -/
def FeeCall.report (c : FeeCall) : JsNumber → Option BrokerReport
  | .nan => none
  | .num fee => some ⟨c.traderAddr, fee⟩

/-- `getBrokerFeeTBps`: the state in which the field `brokerFee` is returned. -/
def FeeState.getBrokerFeeTBps (s : FeeState) (c : FeeCall) : FeeState :=
  match c.feeReply with
  | none => s
  | some fee => { s with brokerFee := ⟨some fee, c.report fee⟩ }

/-- The key of a fee. -/
def feeKey (traderAddr poolSymbol : String) : String :=
  "fee:" ++ traderAddr ++ ":" ++ poolSymbol

/-- `redisClient.get`. -/
def FeeState.get (s : FeeState) (key : String) (now : ℕ) : Option CachedFee :=
  (s.cache.get? key).filter fun entry => decide (now < entry.expires)

/-- What `queryFee` returns. -/
structure FeeAnswer where
  text : String
  source : Option BrokerReport

/-- `queryFee` from the second request to the service on. -/
def fetchFee (s : FeeState) (c : FeeCall) (exchangeFee : ℚ) : FeeState × Except String FeeAnswer :=
  let s := s.getBrokerFeeTBps c
  let fee := JsNumber.round
    ((JsNumber.num (exchangeFee * 10 ^ 5)).add (JsNumber.ofOption s.brokerFee.value))
  let expirationSec := 86400
  let entry : CachedFee :=
    ⟨JsNumber.toFixed fee, c.now + expirationSec, s.brokerFee.source, c.traderAddr⟩
  ({ s with cache := s.cache.set (feeKey c.traderAddr c.poolSymbol) entry },
    .ok ⟨JsNumber.stringify fee, s.brokerFee.source⟩)

/-- `queryFee`. -/
def queryFee (s : FeeState) (c : FeeCall) : FeeState × Except String FeeAnswer :=
  match s.get (feeKey c.traderAddr c.poolSymbol) c.now with
  | some entry => (s, .ok ⟨JsNumber.stringify (JsNumber.parseInt entry.text), entry.source⟩)
  | none =>
      let s := s.getBrokerAddress c
      match c.queryExchangeFee s.brokerAddr with
      | .error e => (s, .error e)
      | .ok none => (s, .error "could not get fee")
      | .ok (some exchangeFee) => fetchFee s c exchangeFee

/-! ## One call -/

/-- The fee of the exchange and the number the service has reported, for a trader. -/
structure ToldFees where
  traderAddr : String
  exchangeFee : ℚ
  brokerFee : ℚ
  deriving DecidableEq

/-- The fee these two make. -/
def ToldFees.text (fees : ToldFees) : String :=
  toString ⌊fees.exchangeFee * 10 ^ 5 + fees.brokerFee + 1 / 2⌋

/-- What a call that finds no fee in Redis is told, if both requests are answered with a number. -/
def told (s : FeeState) (c : FeeCall) : Option ToldFees :=
  match s.get (feeKey c.traderAddr c.poolSymbol) c.now,
    c.queryExchangeFee (s.getBrokerAddress c).brokerAddr, c.feeReply with
  | none, .ok (some exchangeFee), some (.num fee) => some ⟨c.traderAddr, exchangeFee, fee⟩
  | _, _, _ => none

/-- The text is that of fees told for the trader, and comes from the report among them. -/
def OwnFee (toldFees : List ToldFees) (traderAddr text : String) (source : Option BrokerReport) :
    Prop :=
  ∃ fees ∈ toldFees, fees.traderAddr = traderAddr ∧ text = fees.text ∧
    source = some ⟨fees.traderAddr, fees.brokerFee⟩

/-- After calls that were told the fees of `past`: a call that asks returns and caches the fee it is
told itself, one that finds a fee in Redis returns one that an earlier call for the trader was told,
and without a number from the service nothing is cached. -/
structure KeepsOwn (past : List ToldFees) (s : FeeState) (c : FeeCall) : Prop where
  asked : s.get (feeKey c.traderAddr c.poolSymbol) c.now = none → ∀ a, (queryFee s c).2 = .ok a →
    OwnFee (told s c).toList c.traderAddr a.text a.source
  found : ∀ entry, s.get (feeKey c.traderAddr c.poolSymbol) c.now = some entry →
    ∀ a, (queryFee s c).2 = .ok a → OwnFee past c.traderAddr a.text a.source
  cached : ∀ key entry, (queryFee s c).1.cache.get? key = some entry →
    s.cache.get? key = some entry ∨
      OwnFee (told s c).toList c.traderAddr entry.text entry.source
  failed : (∀ fee, c.feeReply ≠ some (.num fee)) → (queryFee s c).1.cache = s.cache

/-- If the service is asked for a fee, it answers with a number. -/
def Replied (s : FeeState) (c : FeeCall) : Prop :=
  s.get (feeKey c.traderAddr c.poolSymbol) c.now = none → ∀ exchangeFee,
    c.queryExchangeFee (s.getBrokerAddress c).brokerAddr = .ok (some exchangeFee) →
      ∃ fee, c.feeReply = some (.num fee)

/-- The service answers if it is asked, and a cached fee was written for the trader. -/
structure Answered (s : FeeState) (c : FeeCall) : Prop where
  reply : Replied s c
  hit : ∀ entry, s.get (feeKey c.traderAddr c.poolSymbol) c.now = some entry →
    entry.writtenFor = c.traderAddr

/-- Every cached fee is one told for the trader it was written for. -/
def FeesOwned (past : List ToldFees) (s : FeeState) : Prop :=
  ∀ key entry, s.cache.get? key = some entry →
    OwnFee past entry.writtenFor entry.text entry.source

section

variable {past : List ToldFees} {s : FeeState} {c : FeeCall}

theorem OwnFee.mono {more : List ToldFees} (h : past ⊆ more) {traderAddr text : String}
    {source : Option BrokerReport} (hown : OwnFee past traderAddr text source) :
    OwnFee more traderAddr text source := by
  obtain ⟨fees, hfees, hrest⟩ := hown
  exact ⟨fees, h hfees, hrest⟩

theorem getBrokerAddress_cache (s : FeeState) (c : FeeCall) :
    (s.getBrokerAddress c).cache = s.cache := by
  unfold FeeState.getBrokerAddress
  split
  · split <;> rfl
  · rfl

/-- The call that reads a cached fee. -/
theorem queryFee_hit {entry : CachedFee}
    (h : s.get (feeKey c.traderAddr c.poolSymbol) c.now = some entry) :
    queryFee s c =
      (s, .ok ⟨JsNumber.stringify (JsNumber.parseInt entry.text), entry.source⟩) := by
  simp only [queryFee, h]

/-- The call that does not come to ask for the broker's fee. -/
theorem queryFee_unknown (h : s.get (feeKey c.traderAddr c.poolSymbol) c.now = none)
    (hfee : ∀ exchangeFee, c.queryExchangeFee (s.getBrokerAddress c).brokerAddr ≠
      .ok (some exchangeFee)) :
    ∃ e, queryFee s c = (s.getBrokerAddress c, .error e) := by
  simp only [queryFee, h]
  cases hex : c.queryExchangeFee (s.getBrokerAddress c).brokerAddr with
  | error e => exact ⟨e, rfl⟩
  | ok fee =>
    cases fee with
    | none => exact ⟨_, rfl⟩
    | some exchangeFee => exact (hfee exchangeFee hex).elim

/-- The call that asks. -/
theorem queryFee_asks {exchangeFee : ℚ}
    (h : s.get (feeKey c.traderAddr c.poolSymbol) c.now = none)
    (hfee : c.queryExchangeFee (s.getBrokerAddress c).brokerAddr = .ok (some exchangeFee)) :
    queryFee s c = fetchFee (s.getBrokerAddress c) c exchangeFee := by
  simp only [queryFee, h, hfee]

/-- With a number from the service, the fee is the one told. -/
theorem fetchFee_of_number (s : FeeState) (exchangeFee : ℚ) {fee : ℚ}
    (h : c.feeReply = some (.num fee)) :
    ∃ entry a, fetchFee s c exchangeFee =
        ({ s with
            brokerFee := ⟨some (.num fee), some ⟨c.traderAddr, fee⟩⟩
            cache := s.cache.set (feeKey c.traderAddr c.poolSymbol) entry }, .ok a) ∧
      entry.writtenFor = c.traderAddr ∧
      OwnFee [⟨c.traderAddr, exchangeFee, fee⟩] c.traderAddr entry.text entry.source ∧
      OwnFee [⟨c.traderAddr, exchangeFee, fee⟩] c.traderAddr a.text a.source := by
  have hstate : s.getBrokerFeeTBps c =
      { s with brokerFee := ⟨some (.num fee), some ⟨c.traderAddr, fee⟩⟩ } := by
    simp only [FeeState.getBrokerFeeTBps, h, FeeCall.report]
  refine ⟨_, _, by rw [fetchFee, hstate], rfl, ?_, ?_⟩
  · exact ⟨_, List.mem_singleton_self _, rfl, rfl, rfl⟩
  · exact ⟨_, List.mem_singleton_self _, rfl, rfl, rfl⟩

/-- A fee is cached in any case. -/
theorem fetchFee_cache (s : FeeState) (c : FeeCall) (exchangeFee : ℚ) :
    ∃ entry, (fetchFee s c exchangeFee).1.cache =
      s.cache.set (feeKey c.traderAddr c.poolSymbol) entry ∧ entry.expires = c.now + 86400 ∧
        entry.writtenFor = c.traderAddr := by
  have hcache : (s.getBrokerFeeTBps c).cache = s.cache := by
    unfold FeeState.getBrokerFeeTBps
    split <;> rfl
  exact ⟨_, by rw [fetchFee, hcache], rfl, rfl⟩

/-- A lookup that is not answered changes the cache: a fee that was there has expired. -/
theorem fetchFee_cache_ne {exchangeFee : ℚ}
    (h : s.get (feeKey c.traderAddr c.poolSymbol) c.now = none) :
    (fetchFee s c exchangeFee).1.cache ≠ s.cache := by
  obtain ⟨entry, hcache, hexpires, -⟩ := fetchFee_cache s c exchangeFee
  intro heq
  have hget : s.cache.get? (feeKey c.traderAddr c.poolSymbol) = some entry := by
    rw [← heq, hcache, OrdMap.get?_set_self]
  rw [FeeState.get, hget, Option.filter_some, if_pos (decide_eq_true (by omega))] at h
  cases h

theorem parsed_text {traderAddr text : String} {source : Option BrokerReport}
    (h : OwnFee past traderAddr text source) :
    JsNumber.stringify (JsNumber.parseInt text) = text := by
  obtain ⟨fees, -, -, rfl, -⟩ := h
  have hread := JsNumber.parseInt_toFixed
    (some ⌊fees.exchangeFee * 10 ^ 5 + fees.brokerFee + 1 / 2⌋)
  rw [JsNumber.toFixed] at hread
  rw [ToldFees.text, hread, JsNumber.stringify]

/-- A call that finds a fee. -/
theorem keepsOwn_of_hit (hs : FeesOwned past s) {entry : CachedFee}
    (hget : s.get (feeKey c.traderAddr c.poolSymbol) c.now = some entry)
    (hfor : entry.writtenFor = c.traderAddr) :
    KeepsOwn past s c ∧ FeesOwned past (queryFee s c).1 := by
  have hown := hs _ _ (Option.filter_eq_some_iff.1 hget).1
  rw [hfor] at hown
  have hstate : (queryFee s c).1 = s := by rw [queryFee_hit hget]
  rw [hstate]
  refine ⟨⟨fun hnone => ?_, fun _ _ a ha => ?_, fun key entry' hentry' => ?_, fun _ => ?_⟩, hs⟩
  · rw [hget] at hnone
    cases hnone
  · rw [queryFee_hit hget] at ha
    obtain rfl := Except.ok.inj ha
    simp only [parsed_text hown]
    exact hown
  · rw [hstate] at hentry'
    exact Or.inl hentry'
  · rw [hstate]

/-- A call that is not told the fee of the exchange. -/
theorem keepsOwn_of_unknown (hs : FeesOwned past s)
    (hget : s.get (feeKey c.traderAddr c.poolSymbol) c.now = none)
    (hfee : ∀ exchangeFee, c.queryExchangeFee (s.getBrokerAddress c).brokerAddr ≠
      .ok (some exchangeFee)) : KeepsOwn past s c ∧ FeesOwned past (queryFee s c).1 := by
  obtain ⟨e, hfails⟩ := queryFee_unknown hget hfee
  have hcache : (queryFee s c).1.cache = s.cache := by
    rw [hfails]
    exact getBrokerAddress_cache s c
  refine ⟨⟨fun _ a ha => ?_, fun entry hentry => ?_, fun key entry hentry => Or.inl ?_,
    fun _ => hcache⟩, fun key entry hentry => ?_⟩
  · rw [hfails] at ha
    cases ha
  · rw [hget] at hentry
    cases hentry
  · rwa [hcache] at hentry
  · rw [hcache] at hentry
    exact hs key entry hentry

/-- A call that asks and gets a number. -/
theorem keepsOwn_of_reply (hs : FeesOwned past s)
    (hget : s.get (feeKey c.traderAddr c.poolSymbol) c.now = none) {exchangeFee fee : ℚ}
    (hfee : c.queryExchangeFee (s.getBrokerAddress c).brokerAddr = .ok (some exchangeFee))
    (hreply : c.feeReply = some (.num fee)) :
    KeepsOwn past s c ∧ FeesOwned (past ++ (told s c).toList) (queryFee s c).1 := by
  have htold : (told s c).toList = [⟨c.traderAddr, exchangeFee, fee⟩] := by
    simp only [told, hget, hfee, hreply, Option.toList_some]
  have hasks := queryFee_asks hget hfee
  obtain ⟨entry, a, hfetch, hfor, hentry, ha⟩ :=
    fetchFee_of_number (s.getBrokerAddress c) exchangeFee hreply
  rw [← htold] at hentry ha
  rw [getBrokerAddress_cache] at hfetch
  have hcache : (queryFee s c).1.cache =
      s.cache.set (feeKey c.traderAddr c.poolSymbol) entry := by rw [hasks, hfetch]
  refine ⟨⟨fun _ a' ha' => ?_, fun entry' hentry' => ?_, fun key entry' hentry' => ?_,
    fun hno => ?_⟩, fun key entry' hentry' => ?_⟩
  · rw [hasks, hfetch] at ha'
    obtain rfl := Except.ok.inj ha'
    exact ha
  · rw [hget] at hentry'
    cases hentry'
  · rw [hcache] at hentry'
    rcases OrdMap.get?_set_cases hentry' with ⟨-, rfl⟩ | hold
    · exact Or.inr hentry
    · exact Or.inl hold
  · exact (hno fee hreply).elim
  · rw [hcache] at hentry'
    rcases OrdMap.get?_set_cases hentry' with ⟨-, rfl⟩ | hold
    · rw [hfor]
      exact hentry.mono (List.subset_append_right _ _)
    · exact (hs key entry' hold).mono (List.subset_append_left _ _)

/-- A call that is answered: it keeps fees and traders together, and so does the cache. -/
theorem keepsOwn_of_answered (hs : FeesOwned past s) (h : Answered s c) :
    KeepsOwn past s c ∧ FeesOwned (past ++ (told s c).toList) (queryFee s c).1 := by
  have hmore : FeesOwned past (queryFee s c).1 →
      FeesOwned (past ++ (told s c).toList) (queryFee s c).1 := fun hnext key entry hentry =>
    (hnext key entry hentry).mono (List.subset_append_left _ _)
  cases hget : s.get (feeKey c.traderAddr c.poolSymbol) c.now with
  | some entry => exact (keepsOwn_of_hit hs hget (h.hit entry hget)).imp_right hmore
  | none =>
    by_cases hknown : ∃ exchangeFee,
        c.queryExchangeFee (s.getBrokerAddress c).brokerAddr = .ok (some exchangeFee)
    · obtain ⟨exchangeFee, hfee⟩ := hknown
      obtain ⟨fee, hreply⟩ := h.reply hget exchangeFee hfee
      exact keepsOwn_of_reply hs hget hfee hreply
    · exact (keepsOwn_of_unknown hs hget (not_exists.1 hknown)).imp_right hmore

/-- **One call.**  In a state whose cached fees belong to those they were written for. -/
theorem keepsOwn_iff (hs : FeesOwned past s) : KeepsOwn past s c ↔ Answered s c := by
  refine ⟨fun h => ⟨fun hget exchangeFee hfee => ?_, fun entry hget => ?_⟩,
    fun h => (keepsOwn_of_answered hs h).1⟩
  · by_contra hno
    have hsame := h.failed (not_exists.1 hno)
    rw [queryFee_asks hget hfee] at hsame
    refine fetchFee_cache_ne ?_ (hsame.trans (getBrokerAddress_cache s c).symm)
    rwa [FeeState.get, getBrokerAddress_cache]
  · have hcached : s.cache.get? (feeKey c.traderAddr c.poolSymbol) = some entry :=
      (Option.filter_eq_some_iff.1 hget).1
    obtain ⟨fees, -, hfor, -, hsource⟩ := hs _ _ hcached
    obtain ⟨fees', -, hfor', -, hsource'⟩ := h.found entry hget _ (by rw [queryFee_hit hget])
    simp only [hsource] at hsource'
    rw [← hfor, ← hfor']
    exact (BrokerReport.mk.inj (Option.some.inj hsource')).1

end

/-! ## Whose fee it is -/

/-- Something holds of every call of a run, in the state in which it is made. -/
def AllCalls (holds : FeeState → FeeCall → Prop) : FeeState → List FeeCall → Prop
  | _, [] => True
  | s, c :: calls => holds s c ∧ AllCalls holds (queryFee s c).1 calls

/-- In a run after calls that were told the fees of `past`, every call keeps fees and traders
together. -/
def AllKeepOwn : List ToldFees → FeeState → List FeeCall → Prop
  | _, _, [] => True
  | past, s, c :: calls =>
      KeepsOwn past s c ∧ AllKeepOwn (past ++ (told s c).toList) (queryFee s c).1 calls

theorem allKeepOwn_iff {past : List ToldFees} {s : FeeState} (hs : FeesOwned past s)
    (calls : List FeeCall) : AllKeepOwn past s calls ↔ AllCalls Answered s calls := by
  induction calls generalizing past s with
  | nil => exact Iff.rfl
  | cons c calls ih =>
    rw [AllKeepOwn, AllCalls, keepsOwn_iff hs]
    exact and_congr_right fun h => ih (keepsOwn_of_answered hs h).2

/-- **Whose fee it is.**  In a run of calls for any traders, every fee that is returned or cached is
made of the exchange fee and the number of the service that a call for that trader was told, the
call itself or, for a fee found in Redis, an earlier one, and nothing is cached without a number
from the service, if and only if the service answers every request that is made to it with a number,
and no call meets a cached fee that was written for somebody else. -/
theorem fees_own_iff (calls : List FeeCall) :
    AllKeepOwn [] FeeState.init calls ↔ AllCalls Answered FeeState.init calls := by
  refine allKeepOwn_iff (fun key entry hentry => ?_) calls
  cases hentry

/-- A trader asks for the fee; the exchange takes ten tenths of a basis point. -/
def feeCallOf (traderAddr : String) (feeReply : Option JsNumber) : FeeCall where
  traderAddr := traderAddr
  poolSymbol := "USDC"
  now := 0
  addressReply := some (some "0xb0")
  queryExchangeFee _ := .ok (some (1 / 10000))
  feeReply := feeReply

/-- The service reports 60 for one trader and does not answer for the next one, who gets and keeps
the fee of the first. -/
theorem failedLookup_keeps_other_fee :
    let s := (queryFee FeeState.init (feeCallOf "0xaa" (some (.num 60)))).1
    (∃ a, (queryFee s (feeCallOf "0xbb" none)).2 = .ok a ∧ a.text = "70" ∧
        a.source = some ⟨"0xaa", 60⟩) ∧
      ¬ AllKeepOwn [] FeeState.init
        [feeCallOf "0xaa" (some (.num 60)), feeCallOf "0xbb" none] := by
  intro s
  have hfloor : ⌊(1 / 10000 : ℚ) * 10 ^ 5 + 60 + 1 / 2⌋ = 70 := by norm_num
  have htext : toString ⌊(1 / 10000 : ℚ) * 10 ^ 5 + 60 + 1 / 2⌋ = "70" := by
    rw [hfloor]
    rfl
  refine ⟨⟨_, rfl, htext, rfl⟩, ?_⟩
  rintro ⟨-, hsecond, -⟩
  obtain ⟨fees, -, hfor, -, hsource⟩ := hsecond.asked rfl _ rfl
  obtain ⟨haddr, -⟩ := BrokerReport.mk.inj (Option.some.inj hsource)
  exact absurd (haddr.trans hfor) (by decide)

/-! ## Addresses without a colon -/

/-- The keys of traders whose addresses have no colon are told apart. -/
theorem traderAddr_of_feeKey {traderAddr traderAddr' poolSymbol poolSymbol' : String}
    (h : ':' ∉ traderAddr.toList) (h' : ':' ∉ traderAddr'.toList)
    (hkey : feeKey traderAddr poolSymbol = feeKey traderAddr' poolSymbol') :
    traderAddr = traderAddr' := by
  have htake : ∀ {addr : String} (pool : String), ':' ∉ addr.toList →
      ((feeKey addr pool).toList.drop 4).takeWhile (fun c => decide (c ≠ ':')) = addr.toList := by
    intro addr pool haddr
    have hlist : (feeKey addr pool).toList.drop 4 = addr.toList ++ ':' :: pool.toList := by
      simp [feeKey]
    have hpos : ∀ c ∈ addr.toList, decide (c ≠ ':') = true := by
      intro c hc
      exact decide_eq_true fun heq => haddr (heq ▸ hc)
    rw [hlist, List.takeWhile_append_of_pos hpos]
    simp
  rw [← String.toList_inj, ← htake poolSymbol h, hkey, htake poolSymbol' h']

/-- Every cached fee stands under a key of the trader it was written for. -/
def KeysOwned (s : FeeState) : Prop :=
  ∀ key entry, s.cache.get? key = some entry →
    ':' ∉ entry.writtenFor.toList ∧ ∃ poolSymbol, key = feeKey entry.writtenFor poolSymbol

theorem keysOwned_queryFee {s : FeeState} {c : FeeCall} (hs : KeysOwned s)
    (hc : ':' ∉ c.traderAddr.toList) : KeysOwned (queryFee s c).1 := by
  cases hget : s.get (feeKey c.traderAddr c.poolSymbol) c.now with
  | some entry =>
    rw [queryFee_hit hget]
    exact hs
  | none =>
    by_cases hknown : ∃ exchangeFee,
        c.queryExchangeFee (s.getBrokerAddress c).brokerAddr = .ok (some exchangeFee)
    · obtain ⟨exchangeFee, hfee⟩ := hknown
      obtain ⟨entry, hcache, -, hfor⟩ := fetchFee_cache (s.getBrokerAddress c) c exchangeFee
      intro key entry' hentry'
      rw [queryFee_asks hget hfee, hcache, getBrokerAddress_cache] at hentry'
      rcases OrdMap.get?_set_cases hentry' with ⟨hkey, rfl⟩ | hold
      · rw [hfor]
        exact ⟨hc, c.poolSymbol, hkey.symm⟩
      · exact hs key entry' hold
    · obtain ⟨e, hfails⟩ := queryFee_unknown hget (not_exists.1 hknown)
      intro key entry hentry
      rw [hfails, getBrokerAddress_cache] at hentry
      exact hs key entry hentry

/-- For such addresses no call meets a fee of somebody else. -/
theorem answered_iff_replied {s : FeeState} {c : FeeCall} (hs : KeysOwned s)
    (hc : ':' ∉ c.traderAddr.toList) : Answered s c ↔ Replied s c := by
  refine ⟨Answered.reply, fun h => ⟨h, fun entry hget => ?_⟩⟩
  obtain ⟨hfor, poolSymbol, hkey⟩ := hs _ _ (Option.filter_eq_some_iff.1 hget).1
  exact traderAddr_of_feeKey hfor hc hkey.symm

/-- So what matters there is that the service answers. -/
theorem answered_run_iff {s : FeeState} (hs : KeysOwned s) (calls : List FeeCall)
    (haddr : ∀ c ∈ calls, ':' ∉ c.traderAddr.toList) :
    AllCalls Answered s calls ↔ AllCalls Replied s calls := by
  induction calls generalizing s with
  | nil => exact Iff.rfl
  | cons c calls ih =>
    have hc := haddr c List.mem_cons_self
    rw [AllCalls, AllCalls, answered_iff_replied hs hc]
    exact and_congr_right fun _ => ih (keysOwned_queryFee hs hc) fun c' hc' =>
      haddr c' (List.mem_cons_of_mem _ hc')

end TraderBackend
