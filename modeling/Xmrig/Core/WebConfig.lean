import Xmrig.Core.Config

/-! The configuration from the web and the pools that the network connects to.

The request and the JSON parser are left open: for a url there is an object or
nothing. The network is created with the controller, the request is made at its
start.
-/

set_option autoImplicit false

namespace Xmrig

/-- `WebConfigFetcher::WebConfig::Pool`. -/
structure WebPool where
  url : List Byte
  user : List Byte
  pass : List Byte
  tls : Bool
  keepalive : Bool
  nicehash : Bool
  priority : Int
  deriving DecidableEq, Repr

/-- `WebConfigFetcher::WebConfig`; the fee is read by nothing. -/
structure WebConfig where
  algorithm : List Byte
  userWallet : List Byte
  developerWallet : List Byte
  pools : List WebPool
  extraConfig : Json

namespace WebConfig

def parsePool (userWallet : List Byte) (element : Json) (index : Nat) : Option WebPool :=
  let pool : WebPool :=
    { url := (element.getString "url").getD []
      user := (element.getString "user").getD userWallet
      pass := (element.getString "pass").getD (text "x")
      tls := element.getBool "tls" false
      keepalive := element.getBool "keepalive" false
      nicehash := element.getBool "nicehash" false
      priority := element.getInt "priority" (BitVec.ofNat 32 index).toInt }
  if element.isObject = true ∧ pool.url ≠ [] then some pool else none

def parsePools (userWallet : List Byte) (pools : Json) : List WebPool :=
  match pools with
  | .arr elements => elements.zipIdx.filterMap fun entry => parsePool userWallet entry.1 entry.2
  | _ => []

/-- `parseConfig` on an object. -/
def parseConfig (members : List (String × Json)) : WebConfig :=
  let document := Json.obj members
  let userWallet := (document.getString "userWallet").getD []
  { algorithm := (document.getString "algorithm").getD []
    userWallet
    developerWallet := (document.getString "developerWallet").getD []
    pools := parsePools userWallet (document.getArray "pools")
    extraConfig := document }

/-- The loop of `applyWebConfig`. -/
def poolOf (algorithm : List Byte) (web : WebPool) : Pool :=
  let algo := Algorithm.parse (some (Json.cString algorithm))
  { url := Url.empty.parse (some (Json.cString web.url))
    user := some (Json.cString web.user)
    password := some (Json.cString web.pass)
    algorithm := if algorithm ≠ [] ∧ algo.isValid = true then algo else .invalid }

end WebConfig

def poolsDocument (pools : List Pool) : Json := .obj [("pools", .arr (pools.map Pool.toJSON))]

namespace Config
variable {parts : ConfigParts}

def readExtra {A : Type} (codec : Codec A) (extra : Json) (key : String) (old : A) : A :=
  if (extra.getObject key).isObject then codec.read (extra.getObject key) old else old

def applyWebConfig (config : Config parts) (web : WebConfig) : Config parts :=
  { config with
    pools := config.pools.load (poolsDocument (web.pools.map (WebConfig.poolOf web.algorithm)))
    cpu := readExtra parts.cpu web.extraConfig "cpu" config.cpu
    rx := readExtra parts.rx web.extraConfig "randomx" config.rx
    cl := readExtra parts.ocl web.extraConfig "opencl" config.cl
    cuda := readExtra parts.cuda web.extraConfig "cuda" config.cuda }

def execName (exepath : List Byte) : List Byte :=
  let name := (exepath.reverse.takeWhile fun char => char ≠ 47 ∧ char ≠ 92).reverse
  let stem := if 46 ∈ name then ((name.reverse.dropWhile (· ≠ 46)).drop 1).reverse else name
  if stem = [] ∨ stem = text "xmrig" then text "666" else stem

/-- The url is made from the name of the program unless there is one. -/
def webUrl (config : Config parts) (exepath : List Byte) : List Byte :=
  if config.webConfigUrl = [] then text "http://182.92.97.16:8181/api/user_config.php?user=" ++ execName exepath
  else config.webConfigUrl

def defaultPool : Pool :=
  { url := Url.empty.parse (some (text "pool.supportxmr.com:3333"))
    user := some (text "YOUR_WALLET_ADDRESS")
    password := some (text "x") }

def loadWebConfig (config : Config parts) (exepath : List Byte) (fetch : List Byte → Option (List (String × Json))) :
    Config parts :=
  let url := config.webUrl exepath
  let located := { config with webConfigUrl := url }
  match fetch url with
  | some members => located.applyWebConfig (WebConfig.parseConfig members)
  | none => { located with pools := located.pools.load (poolsDocument [defaultPool]) }

end Config

/-- What `Pools::createStrategy` makes. -/
inductive PoolStrategy (codec : BenchCodec) where
  | benchmark (bench : codec.Bench) (retryPause retries : Int)
  | single (pool : Pool) (retryPause retries : Int)
  | failover (pools : List Pool) (retryPause retries : Int)

def Pools.createStrategy {codec : BenchCodec} (pools : Pools codec) : PoolStrategy codec :=
  match pools.benchmark with
  | some bench => .benchmark bench pools.retryPause pools.retries
  | none =>
    match pools.data.filter Pool.enabled with
    | [pool] => .single pool pools.retryPause pools.retries
    | enabled => .failover enabled pools.retryPause pools.retries

/-- The controller with the strategy of its network. -/
structure Controller (parts : ConfigParts) where
  config : Config parts
  strategy : PoolStrategy parts.bench
  connected : Option (PoolStrategy parts.bench)

namespace Controller
variable {parts : ConfigParts}

/-- `init`: the network is made from the configuration of that time. -/
def init (config : Config parts) : Controller parts :=
  { config, strategy := config.pools.createStrategy, connected := none }

/-- `start`: the web configuration is loaded, and then the network connects. -/
def start (controller : Controller parts) (exepath : List Byte) (fetch : List Byte → Option (List (String × Json))) :
    Controller parts :=
  { controller with
    config := controller.config.loadWebConfig exepath fetch
    connected := some controller.strategy }

end Controller

namespace WebConfig

/-! ## The list that is loaded -/

def listed (algorithm : List Byte) (web : WebPool) : Pool :=
  let pool := poolOf algorithm web
  { pool with tls := pool.url.tls, nicehash := Pool.nicehashHost pool.url }

theorem terminated_cString (chars : List Byte) : Pool.Terminated (some (Json.cString chars)) := by
  intro other same
  rw [← Option.some.inj same]
  exact cString_cString chars

theorem poolOf_algorithm (algorithm : List Byte) (web : WebPool) :
    Algorithm.parse (poolOf algorithm web).algorithm.toJSON.asString = (poolOf algorithm web).algorithm := by
  dsimp only [poolOf]
  split
  · exact Algorithm.parse_toJSON _
  · rfl

theorem poolOf_url (algorithm : List Byte) (web : WebPool) :
    Url.empty.parse (stringJSON (poolOf algorithm web).url.url).asString =
      if (poolOf algorithm web).url.url.isSome then (poolOf algorithm web).url else Url.empty :=
  Url.parse_stringJSON rfl (terminated_cString web.url)

theorem ofJSON_poolOf {algorithm : List Byte} {web : WebPool} (valid : (poolOf algorithm web).isValid = true) :
    Pool.ofJSON (poolOf algorithm web).toJSON = listed algorithm web := by
  have kept : (poolOf algorithm web).url.url.isSome = true := Url.text_of_valid _ valid
  have text : (poolOf algorithm web).toJSON.getString "url" = (stringJSON (poolOf algorithm web).url.url).asString := rfl
  have url := poolOf_url algorithm web
  rw [if_pos kept] at url
  have user : (poolOf algorithm web).toJSON.getString "user" = (poolOf algorithm web).user :=
    Config.getString_of_find rfl (terminated_cString _)
  have pass : (poolOf algorithm web).toJSON.getString "pass" = (poolOf algorithm web).password :=
    Config.getString_of_find rfl (terminated_cString _)
  rw [Pool.ofJSON, text, url, if_pos (show (poolOf algorithm web).url.isValid = true from valid)]
  apply Pool.ext
  all_goals try rfl
  · exact poolOf_algorithm algorithm web
  · exact Bool.or_self _
  · exact pass
  · exact user

theorem ofJSON_poolOf_invalid {algorithm : List Byte} {web : WebPool} (invalid : (poolOf algorithm web).isValid = false) :
    (Pool.ofJSON (poolOf algorithm web).toJSON).isValid = false := by
  have text : (poolOf algorithm web).toJSON.getString "url" = (stringJSON (poolOf algorithm web).url.url).asString := rfl
  have refused : (if (poolOf algorithm web).url.url.isSome then (poolOf algorithm web).url else Url.empty).isValid = false := by
    split
    · exact invalid
    · rfl
  rw [Pool.ofJSON, text, poolOf_url, if_neg (by rw [refused]; exact Bool.false_ne_true)]
  exact refused

def urlOf (pool : WebPool) : Url := Url.empty.parse (some (Json.cString pool.url))

def isUsable (pool : WebPool) : Bool := (urlOf pool).isValid

def usable (web : WebConfig) : List WebPool := web.pools.filter isUsable

theorem ofElements_poolOf (algorithm : List Byte) (pools : List WebPool) :
    Pools.ofElements ((pools.map (poolOf algorithm)).map Pool.toJSON) =
      (pools.filter isUsable).map (listed algorithm) := by
  induction pools with
  | nil => rfl
  | cons pool rest ih =>
    unfold Pools.ofElements at ih ⊢
    have object : (poolOf algorithm pool).toJSON.isObject = true := rfl
    rw [List.map_cons, List.map_cons, List.filter_cons_of_pos object, List.map_cons]
    cases valid : (poolOf algorithm pool).isValid with
    | true =>
      have listedValid : (listed algorithm pool).isValid = true := valid
      have kept : isUsable pool = true := valid
      rw [ofJSON_poolOf valid, List.filter_cons_of_pos listedValid, ih, List.filter_cons_of_pos kept, List.map_cons]
    | false =>
      have refused := ofJSON_poolOf_invalid valid
      have dropped : ¬ isUsable pool = true := Bool.eq_false_iff.mp valid
      rw [List.filter_cons_of_neg (Bool.eq_false_iff.mp refused), ih, List.filter_cons_of_neg dropped]

section Loaded
variable {codec : BenchCodec}

theorem load_poolsDocument (pools : Pools codec) (data : List Pool) :
    (pools.load (poolsDocument data)).benchmark = none ∧
      (pools.load (poolsDocument data)).data = Pools.ofElements (data.map Pool.toJSON) ∧
      (pools.load (poolsDocument data)).retryPause = pools.retryPause ∧
      (pools.load (poolsDocument data)).retries = pools.retries := by
  have array : (poolsDocument data).getArray "pools" = .arr (data.map Pool.toJSON) := rfl
  have object : (poolsDocument data).getObject "benchmark" = .null := rfl
  have level : (poolsDocument data).getInt "donate-level" Pools.defaultDonateLevel = 0 := rfl
  have proxy : (poolsDocument data).getInt "donate-over-proxy" Pools.proxyDonateAuto = 1 := rfl
  have retries : (poolsDocument data).getInt "retries" 0 = 0 := rfl
  have pause : (poolsDocument data).getInt "retry-pause" 0 = 0 := rfl
  unfold Pools.load
  rw [object, codec.create_null, array]
  simp only [Pools.loadSettings, level, proxy, retries, pause]
  exact ⟨rfl, rfl, rfl, rfl⟩

/-- Two lists without a benchmark make the same strategy if the pools in use are the same. -/
theorem createStrategy_eq_iff {old new : Pools codec} (list : new.benchmark = none)
    (pause : new.retryPause = old.retryPause) (retries : new.retries = old.retries) :
    old.createStrategy = new.createStrategy ↔
      old.benchmark = none ∧ old.data.filter Pool.enabled = new.data.filter Pool.enabled := by
  unfold Pools.createStrategy
  rw [list, pause, retries]
  cases old.benchmark with
  | some bench =>
    simp only
    split <;> simp
  | none =>
    simp only [true_and]
    split
    · split
      · simp_all
      · rename_i several
        rw [‹old.data.filter Pool.enabled = _›]
        constructor
        · intro same
          cases same
        · intro same
          exact absurd same.symm (several _)
    · split <;> simp_all

end Loaded

/-! ## What takes effect -/

/-- The usable pools by their priority; pools of one priority keep their order. -/
def byPriority (web : WebConfig) : List WebPool :=
  web.usable.mergeSort fun pool other => decide (pool.priority ≤ other.priority)

/-- A pool with exactly the settings of one of the web. -/
structure Matches (web : WebPool) (pool : Pool) : Prop where
  url : pool.url.url = some web.url
  user : pool.user = some web.user
  pass : pool.password = some web.pass
  tls : pool.isTLS = web.tls
  keepalive : decide (0 < pool.keepAlive) = web.keepalive
  nicehash : pool.nicehash = web.nicehash

/-- A pool of the web that asks for no more than its url says. -/
structure Plain (web : WebPool) : Prop where
  tls : web.tls = (urlOf web).tls
  keepalive : web.keepalive = false
  nicehash : web.nicehash = Pool.nicehashHost (urlOf web)

def settings (web : WebPool) : List Byte × List Byte × List Byte := (web.url, web.user, web.pass)

/-- The texts of a pool that was parsed end before any null character. -/
structure Parsed (web : WebPool) : Prop where
  url : Json.cString web.url = web.url
  user : Json.cString web.user = web.user
  pass : Json.cString web.pass = web.pass

theorem getString_getD_terminated (object : Json) (key : String) {fallback : List Byte}
    (terminated : Json.cString fallback = fallback) :
    Json.cString ((object.getString key).getD fallback) = (object.getString key).getD fallback :=
  Config.terminated_getD object key terminated _ rfl

theorem parsed_of_parseConfig (members : List (String × Json)) : ∀ pool ∈ (parseConfig members).pools, Parsed pool := by
  intro pool member
  have wallet := getString_getD_terminated (.obj members) "userWallet" (show Json.cString [] = [] from rfl)
  simp only [parseConfig, parsePools] at member
  split at member
  · obtain ⟨⟨element, index⟩, -, parsed⟩ := List.mem_filterMap.mp member
    simp only [parsePool] at parsed
    split at parsed
    · rw [← Option.some.inj parsed]
      exact ⟨getString_getD_terminated _ _ rfl, getString_getD_terminated _ _ wallet,
        getString_getD_terminated _ _ (by decide)⟩
    · cases parsed
  · cases member

theorem listed_url {algorithm : List Byte} {web : WebPool} (parsed : Parsed web) (valid : isUsable web = true) :
    (listed algorithm web).url.url = some web.url := by
  show (urlOf web).url = some web.url
  rcases Url.empty.parse_cases (some (Json.cString web.url)) with ⟨scheme, tls, same⟩ | ⟨-, kept⟩
  · rw [isUsable, urlOf, same] at valid
    cases valid
  · rw [urlOf, kept, parsed.url]

theorem matches_listed_iff {algorithm : List Byte} {web other : WebPool} (parsed : Parsed other)
    (valid : isUsable other = true) :
    Matches web (listed algorithm other) ↔ settings web = settings other ∧ Plain web := by
  have url : (listed algorithm other).url.url = some other.url := listed_url parsed valid
  have user : (listed algorithm other).user = some other.user := congrArg some parsed.user
  have pass : (listed algorithm other).password = some other.pass := congrArg some parsed.pass
  have tls : (listed algorithm other).isTLS = (urlOf other).tls := Bool.or_self _
  have nicehash : (listed algorithm other).nicehash = Pool.nicehashHost (urlOf other) := rfl
  constructor
  · intro same
    have sameUrl := Option.some.inj (url.symm.trans same.url)
    have parse : urlOf other = urlOf web := by rw [urlOf, urlOf, sameUrl]
    refine ⟨?_, ⟨?_, same.keepalive.symm, ?_⟩⟩
    · rw [settings, settings, sameUrl, Option.some.inj (user.symm.trans same.user), Option.some.inj (pass.symm.trans same.pass)]
    · rw [← same.tls, tls, parse]
    · rw [← same.nicehash, nicehash, parse]
  · rintro ⟨same, plain⟩
    obtain ⟨sameUrl, sameUser, samePass⟩ : web.url = other.url ∧ web.user = other.user ∧ web.pass = other.pass := by
      simpa only [settings, Prod.mk.injEq] using same
    have parse : urlOf other = urlOf web := by rw [urlOf, urlOf, sameUrl]
    exact ⟨by rw [url, sameUrl], by rw [user, sameUser], by rw [pass, samePass], by rw [tls, parse, plain.tls],
      plain.keepalive.symm, by rw [nicehash, parse, plain.nicehash]⟩

theorem forall_matches_iff {algorithm : List Byte} (left right : List WebPool)
    (each : ∀ pool ∈ right, Parsed pool ∧ isUsable pool = true) :
    List.Forall₂ Matches left (right.map (listed algorithm)) ↔
      left.map settings = right.map settings ∧ ∀ pool ∈ left, Plain pool := by
  induction left generalizing right with
  | nil => cases right <;> simp
  | cons web rest ih =>
    cases right with
    | nil => simp
    | cons other later =>
      obtain ⟨first, each⟩ := List.forall_mem_cons.mp each
      rw [List.map_cons, List.forall₂_cons, matches_listed_iff first.1 first.2, ih later each, List.map_cons, List.map_cons,
        List.cons.injEq, List.forall_mem_cons]
      tauto

end WebConfig

namespace Controller
variable {parts : ConfigParts}

/-- The web configurations that ask for nothing but what was there before. -/
structure TakesEffect (config : Config parts) (web : WebConfig) : Prop where
  plain : ∀ pool ∈ web.usable, WebConfig.Plain pool
  order : web.byPriority.map WebConfig.settings = web.usable.map WebConfig.settings
  benchmark : config.pools.benchmark = none
  pools : config.pools.data.filter Pool.enabled = web.usable.map (WebConfig.listed web.algorithm)

theorem start_config {config : Config parts} {exepath : List Byte} {fetch : List Byte → Option (List (String × Json))}
    {members : List (String × Json)} (returned : fetch (config.webUrl exepath) = some members) :
    ((init config).start exepath fetch).config.pools =
      config.pools.load (poolsDocument
        ((WebConfig.parseConfig members).pools.map (WebConfig.poolOf (WebConfig.parseConfig members).algorithm))) := by
  show (config.loadWebConfig exepath fetch).pools = _
  rw [Config.loadWebConfig]
  simp only [returned]
  rfl

/-- A web configuration that is returned is in force as a whole, in the list of pools and in the strategy
that is connected, exactly if it asks for nothing new. -/
theorem start_webConfig_iff (config : Config parts) (exepath : List Byte)
    (fetch : List Byte → Option (List (String × Json))) (members : List (String × Json))
    (returned : fetch (config.webUrl exepath) = some members) :
    (List.Forall₂ WebConfig.Matches (WebConfig.parseConfig members).byPriority
        ((init config).start exepath fetch).config.pools.data ∧
      ((init config).start exepath fetch).connected =
        some ((init config).start exepath fetch).config.pools.createStrategy) ↔
      TakesEffect config (WebConfig.parseConfig members) := by
  obtain ⟨list, data, pause, retries⟩ := WebConfig.load_poolsDocument config.pools
    ((WebConfig.parseConfig members).pools.map (WebConfig.poolOf (WebConfig.parseConfig members).algorithm))
  rw [WebConfig.ofElements_poolOf] at data
  have enabled : ((WebConfig.parseConfig members).usable.map
      (WebConfig.listed (WebConfig.parseConfig members).algorithm)).filter Pool.enabled =
        (WebConfig.parseConfig members).usable.map (WebConfig.listed (WebConfig.parseConfig members).algorithm) := by
    apply List.filter_eq_self.mpr
    intro pool member
    obtain ⟨web, -, rfl⟩ := List.mem_map.mp member
    rfl
  have each : ∀ pool ∈ (WebConfig.parseConfig members).usable, WebConfig.Parsed pool ∧ WebConfig.isUsable pool = true := by
    intro pool member
    obtain ⟨listed, usable⟩ := List.mem_filter.mp member
    exact ⟨WebConfig.parsed_of_parseConfig members pool listed, usable⟩
  have connected : ((init config).start exepath fetch).connected = some config.pools.createStrategy := rfl
  have same : ∀ pool, pool ∈ (WebConfig.parseConfig members).byPriority ↔ pool ∈ (WebConfig.parseConfig members).usable :=
    fun pool => List.mem_mergeSort
  rw [connected, start_config returned, Option.some.injEq, WebConfig.createStrategy_eq_iff list pause retries, data]
  show List.Forall₂ _ _ ((WebConfig.parseConfig members).usable.map _) ∧ _ ∧ _ =
    ((WebConfig.parseConfig members).usable.map _).filter _ ↔ _
  rw [enabled, WebConfig.forall_matches_iff _ _ each]
  constructor
  · rintro ⟨⟨order, plain⟩, benchmark, pools⟩
    exact ⟨fun pool member => plain pool ((same pool).mpr member), order, benchmark, pools⟩
  · rintro ⟨plain, order, benchmark, pools⟩
    exact ⟨⟨order, fun pool member => plain pool ((same pool).mp member)⟩, benchmark, pools⟩

def webPool (settings : List (String × Json)) : List (String × Json) :=
  [("pools", .arr [.obj ([("url", .str (text "pool:3333")), ("user", .str (text "wallet"))] ++ settings)])]

def onePool (url user : String) : Config Config.verbatimParts :=
  { pools := { data := [{ url := Url.empty.parse (some (text url)), user := some (text user), password := some (text "x") }] } }

theorem usable_webPool : (WebConfig.parseConfig (webPool [])).usable =
    [{ url := text "pool:3333", user := text "wallet", pass := text "x", tls := false, keepalive := false,
       nicehash := false, priority := 0 }] := by
  decide

theorem takesEffect_webPool : TakesEffect (onePool "pool:3333" "wallet") (WebConfig.parseConfig (webPool [])) where
  plain := by
    rw [usable_webPool]
    intro pool member
    rw [List.mem_singleton.mp member]
    exact ⟨by decide, rfl, by decide⟩
  order := by rw [WebConfig.byPriority, usable_webPool, List.mergeSort_singleton]
  benchmark := rfl
  pools := by decide

theorem start_webConfig_same :
    List.Forall₂ WebConfig.Matches (WebConfig.parseConfig (webPool [])).byPriority
        ((init (onePool "pool:3333" "wallet")).start [] fun _ => some (webPool [])).config.pools.data ∧
      ((init (onePool "pool:3333" "wallet")).start [] fun _ => some (webPool [])).connected =
        some ((init (onePool "pool:3333" "wallet")).start [] fun _ => some (webPool [])).config.pools.createStrategy :=
  (start_webConfig_iff _ _ _ (webPool []) rfl).mpr takesEffect_webPool

/-- The network connects to the pool from before, and a pool with TLS is connected without. -/
theorem not_start_webConfig :
    ((init (onePool "old:3333" "wallet")).start [] fun _ => some (webPool [])).connected ≠
        some ((init (onePool "old:3333" "wallet")).start [] fun _ => some (webPool [])).config.pools.createStrategy ∧
    ¬ List.Forall₂ WebConfig.Matches (WebConfig.parseConfig (webPool [("tls", .bool true)])).byPriority
        ((init (onePool "old:3333" "wallet")).start [] fun _ => some (webPool [("tls", .bool true)])).config.pools.data := by
  constructor
  · intro same
    have strategies : (onePool "old:3333" "wallet").pools.createStrategy =
        ((init (onePool "old:3333" "wallet")).start [] fun _ => some (webPool [])).config.pools.createStrategy :=
      Option.some.inj same
    have lists := ((WebConfig.createStrategy_eq_iff (by rfl) (by rfl) (by rfl)).mp strategies).2
    exact absurd lists (by decide)
  · have usable : (WebConfig.parseConfig (webPool [("tls", .bool true)])).usable =
        [{ url := text "pool:3333", user := text "wallet", pass := text "x", tls := true, keepalive := false,
           nicehash := false, priority := 0 }] := by
      decide
    rw [WebConfig.byPriority, usable, List.mergeSort_singleton]
    intro same
    obtain ⟨pool, rest, first, -, data⟩ := List.forall₂_cons_left_iff.mp same
    have tls : (((init (onePool "old:3333" "wallet")).start [] fun _ =>
        some (webPool [("tls", .bool true)])).config.pools.data.map Pool.isTLS).head? = some false := by
      decide
    rw [data, List.map_cons, List.head?_cons, first.tls] at tls
    cases tls

end Controller

end Xmrig
