import Xmrig.Stratum.Url

/-! The configuration of a pool and its JSON.

Each mode writes its own part of the fields. A pool that was read and written is read again as
what `written` says: the fields of the other modes come back with their defaults.
-/

set_option autoImplicit false

namespace Xmrig

inductive PoolMode where
  | pool
  | daemon
  | selfSelect
  deriving DecidableEq, Repr

/-- The part of a pool that a JSON object can set. -/
@[ext] structure Pool where
  algorithm : Algorithm := .invalid
  submitToOrigin : Bool := false
  coin : Coin := .invalid
  keepAlive : Int := 0
  mode : PoolMode := .pool
  proxy : Url := ProxyUrl.empty
  enabled : Bool := true
  nicehash : Bool := false
  tls : Bool := false
  sni : Bool := false
  fingerprint : Option (List Byte) := none
  password : Option (List Byte) := none
  rigId : Option (List Byte) := none
  user : Option (List Byte) := none
  spendSecretKey : Option (List Byte) := none
  pollInterval : Nat := 1000
  jobTimeout : Nat := 15000
  daemon : Url := Url.empty
  url : Url := Url.empty
  zmqPort : Int := -1
  deriving DecidableEq, Repr

namespace Pool

def kKeepAliveTimeout : Int := 60
def kDefaultPollInterval : Nat := 1000
def kDefaultJobTimeout : Nat := 15000

def isValid (pool : Pool) : Bool := pool.url.isValid

def isTLS (pool : Pool) : Bool := pool.tls || pool.url.tls

def isEqual (pool other : Pool) : Bool :=
  pool.enabled = other.enabled && pool.nicehash = other.nicehash && pool.tls = other.tls && pool.sni = other.sni &&
    pool.keepAlive = other.keepAlive && pool.algorithm = other.algorithm && pool.coin = other.coin &&
    pool.mode = other.mode && pool.fingerprint = other.fingerprint && pool.password = other.password &&
    pool.rigId = other.rigId && pool.url.isEqual other.url && pool.user = other.user &&
    pool.pollInterval = other.pollInterval && pool.jobTimeout = other.jobTimeout &&
    pool.daemon.isEqual other.daemon && pool.proxy.isEqual other.proxy

/-- `strstr` finds the needle. -/
def contains (needle : List Byte) : List Byte → Bool
  | [] => needle.isEmpty
  | char :: rest => needle.isPrefixOf (char :: rest) || contains needle rest

/-- The host of a url is one of `nicehash.com`. -/
def nicehashHost (url : Url) : Bool :=
  match url.host with
  | none => false
  | some host => contains (text "nicehash.com") host

/-- `setKeepAlive` on a value: a number that is not negative, or a switch for the default. -/
def keepAliveOf (value : Json) : Int :=
  match value.asInt, value.asBool with
  | some seconds, _ => max seconds 0
  | none, some true => kKeepAliveTimeout
  | none, _ => 0

/-- `Pool(const rapidjson::Value &)`. -/
def ofJSON (object : Json) : Pool :=
  let url := Url.empty.parse (object.getString "url")
  if url.isValid then
    let daemon := Url.empty.parse (object.getString "self-select")
    { url
      user := object.getString "user"
      spendSecretKey := object.getString "spend-secret-key"
      password := object.getString "pass"
      rigId := object.getString "rig-id"
      fingerprint := object.getString "tls-fingerprint"
      pollInterval := object.getUint64 "daemon-poll-interval" kDefaultPollInterval
      jobTimeout := object.getUint64 "daemon-job-timeout" kDefaultJobTimeout
      algorithm := Algorithm.parse (object.getString "algo")
      coin := Coin.parse (object.getString "coin")
      daemon
      proxy := ProxyUrl.ofJSON (object.getValue "socks5")
      zmqPort := object.getInt "daemon-zmq-port" (-1)
      enabled := object.getBool "enabled" true
      nicehash := object.getBool "nicehash" false || nicehashHost url
      tls := object.getBool "tls" false || url.tls
      sni := object.getBool "sni" false
      keepAlive := keepAliveOf (object.getValue "keepalive")
      mode := if daemon.isValid then .selfSelect else if object.getBool "daemon" false then .daemon else .pool
      submitToOrigin := daemon.isValid && object.getBool "submit-to-origin" false }
  else { url }

/-- `0` and the default timeout are written as a switch. -/
def keepAliveJSON (keepAlive : Int) : Json :=
  if keepAlive = 0 ∨ keepAlive = kKeepAliveTimeout then .bool (0 < keepAlive) else .int keepAlive

def members (pool : Pool) : List (String × Json) :=
  [("algo", pool.algorithm.toJSON), ("coin", pool.coin.toJSON), ("url", stringJSON pool.url.url),
      ("user", stringJSON pool.user)] ++
    (if pool.spendSecretKey.getD [] = [] then []
      else [("spend-secret-key", stringJSON pool.spendSecretKey)]) ++
    (if pool.mode = .daemon then []
      else [("pass", stringJSON pool.password), ("rig-id", stringJSON pool.rigId), ("nicehash", .bool pool.nicehash),
        ("keepalive", keepAliveJSON pool.keepAlive)]) ++
    [("enabled", .bool pool.enabled), ("tls", .bool pool.isTLS), ("sni", .bool pool.sni),
      ("tls-fingerprint", stringJSON pool.fingerprint), ("daemon", .bool (pool.mode = .daemon)),
      ("socks5", ProxyUrl.toJSON pool.proxy)] ++
    (if pool.mode = .daemon then
      [("daemon-poll-interval", .int pool.pollInterval), ("daemon-job-timeout", .int pool.jobTimeout),
        ("daemon-zmq-port", .int pool.zmqPort)]
    else [("self-select", stringJSON pool.daemon.url), ("submit-to-origin", .bool pool.submitToOrigin)])

def toJSON (pool : Pool) : Json := .obj pool.members

/-- What is left of a pool once it was written: an empty key, a proxy that is not valid and a
self-select url without a text are dropped, and so is what its mode does not write. -/
def written (pool : Pool) : Pool :=
  if pool.mode = .daemon then
    { pool with
      spendSecretKey := if pool.spendSecretKey.getD [] = [] then none else pool.spendSecretKey
      proxy := if ProxyUrl.isValid pool.proxy then pool.proxy else ProxyUrl.empty
      password := none
      rigId := none
      nicehash := nicehashHost pool.url
      keepAlive := 0
      daemon := Url.empty }
  else
    { pool with
      spendSecretKey := if pool.spendSecretKey.getD [] = [] then none else pool.spendSecretKey
      proxy := if ProxyUrl.isValid pool.proxy then pool.proxy else ProxyUrl.empty
      pollInterval := kDefaultPollInterval
      jobTimeout := kDefaultJobTimeout
      zmqPort := -1
      daemon := if pool.daemon.url.isSome then pool.daemon else Url.empty }

/-- A string that was read ends before any null character. -/
def Terminated (chars : Option (List Byte)) : Prop := ∀ text, chars = some text → Json.cString text = text

/-- What holds of every pool that was read from an object. -/
structure Readable (pool : Pool) : Prop where
  valid : pool.url.isValid = true
  url : Url.empty.parse (stringJSON pool.url.url).asString = pool.url
  user : Terminated pool.user
  spendSecretKey : Terminated pool.spendSecretKey
  password : Terminated pool.password
  rigId : Terminated pool.rigId
  fingerprint : Terminated pool.fingerprint
  pollInterval : pool.pollInterval < 2 ^ 64
  jobTimeout : pool.jobTimeout < 2 ^ 64
  zmqPort : -2 ^ 31 ≤ pool.zmqPort ∧ pool.zmqPort < 2 ^ 31
  keepAlive : 0 ≤ pool.keepAlive ∧ pool.keepAlive < 2 ^ 31
  algorithm : Algorithm.parse pool.algorithm.toJSON.asString = pool.algorithm
  daemon : Url.empty.parse (stringJSON pool.daemon.url).asString =
    if pool.daemon.url.isSome then pool.daemon else Url.empty
  daemonText : pool.daemon.isValid = true → pool.daemon.url.isSome = true
  proxy : ProxyUrl.ofJSON (ProxyUrl.toJSON pool.proxy) =
    if ProxyUrl.isValid pool.proxy then pool.proxy else ProxyUrl.empty
  nicehash : nicehashHost pool.url = true → pool.nicehash = true
  tls : pool.url.tls = true → pool.tls = true
  selfSelect : pool.mode = .selfSelect ↔ pool.daemon.isValid = true
  submitToOrigin : pool.submitToOrigin = true → pool.daemon.isValid = true

theorem terminated_getString (object : Json) (key : String) : Terminated (object.getString key) := by
  intro text same
  unfold Json.getString at same
  obtain ⟨value, -, read⟩ := Option.bind_eq_some_iff.mp same
  cases value with
  | str chars =>
    cases read
    exact cString_cString chars
  | _ => cases read

theorem asInteger_range {low high result : Int} {value : Json} (read : value.asInteger low high = some result) :
    low ≤ result ∧ result < high := by
  cases value with
  | int number =>
    simp only [Json.asInteger] at read
    split at read
    · cases read
      assumption
    · cases read
  | _ => cases read

theorem getUint64_lt (object : Json) (key : String) {fallback : Nat} (small : fallback < 2 ^ 64) :
    object.getUint64 key fallback < 2 ^ 64 := by
  unfold Json.getUint64
  cases read : (object.findMember key).bind Json.asUint64 with
  | none => exact small
  | some number =>
    obtain ⟨value, -, found⟩ := Option.bind_eq_some_iff.mp read
    obtain ⟨integer, known, rfl⟩ := Option.map_eq_some_iff.mp found
    have range := asInteger_range known
    rw [Option.getD_some]
    omega

theorem getInt_range (object : Json) (key : String) {fallback : Int}
    (small : -2 ^ 31 ≤ fallback ∧ fallback < 2 ^ 31) :
    -2 ^ 31 ≤ object.getInt key fallback ∧ object.getInt key fallback < 2 ^ 31 := by
  unfold Json.getInt
  cases read : (object.findMember key).bind Json.asInt with
  | none => exact small
  | some number =>
    obtain ⟨value, -, found⟩ := Option.bind_eq_some_iff.mp read
    exact asInteger_range found

theorem keepAliveOf_range (value : Json) : 0 ≤ keepAliveOf value ∧ keepAliveOf value < 2 ^ 31 := by
  unfold keepAliveOf kKeepAliveTimeout
  cases known : value.asInt with
  | some seconds =>
    have range := asInteger_range known
    simp only
    omega
  | none =>
    cases value.asBool with
    | none => simp
    | some enable => cases enable <;> simp

theorem readable_ofJSON {object : Json} (valid : (ofJSON object).isValid = true) : Readable (ofJSON object) := by
  have opened : (Url.empty.parse (object.getString "url")).isValid = true := by
    by_contra refused
    rw [isValid, ofJSON, if_neg refused] at valid
    exact refused valid
  have kept := Url.text_of_valid (object.getString "url") opened
  have url := Url.parse_stringJSON (show Url.empty.url = none from rfl) (terminated_getString object "url")
  rw [if_pos kept] at url
  rw [ofJSON, if_pos opened]
  exact {
    valid := opened
    url := url
    user := terminated_getString object "user"
    spendSecretKey := terminated_getString object "spend-secret-key"
    password := terminated_getString object "pass"
    rigId := terminated_getString object "rig-id"
    fingerprint := terminated_getString object "tls-fingerprint"
    pollInterval := getUint64_lt object _ (by decide)
    jobTimeout := getUint64_lt object _ (by decide)
    zmqPort := getInt_range object _ (by decide)
    keepAlive := keepAliveOf_range _
    algorithm := Algorithm.parse_toJSON _
    daemon := Url.parse_stringJSON rfl (terminated_getString object "self-select")
    daemonText := Url.text_of_valid _
    proxy := ProxyUrl.ofJSON_toJSON _
    nicehash := fun host => (Bool.or_eq_true _ _).mpr (.inr host)
    tls := fun secure => (Bool.or_eq_true _ _).mpr (.inr secure)
    selfSelect := by
      simp only
      split
      · simp [*]
      · split <;> simp [*]
    submitToOrigin := fun origin => ((Bool.and_eq_true _ _).mp origin).1 }

theorem stringJSON_asString {chars : Option (List Byte)} (terminated : Terminated chars) :
    (stringJSON chars).asString = chars := by
  cases chars with
  | none => rfl
  | some text => rw [stringJSON, Json.asString, terminated text rfl]

theorem keepAliveOf_keepAliveJSON {keepAlive : Int} (range : 0 ≤ keepAlive ∧ keepAlive < 2 ^ 31) :
    keepAliveOf (keepAliveJSON keepAlive) = keepAlive := by
  unfold keepAliveJSON
  split
  · rename_i switch
    rcases switch with rfl | rfl <;> rfl
  · have fits : -2 ^ 31 ≤ keepAlive ∧ keepAlive < 2 ^ 31 := by omega
    simp only [keepAliveOf, Json.asInt, Json.asInteger, if_pos fits]
    omega

theorem asUint64_natCast {number : Nat} (small : number < 2 ^ 64) : (Json.int number).asUint64 = some number := by
  have fits : (0 : Int) ≤ number ∧ (number : Int) < 2 ^ 64 := by omega
  rw [Json.asUint64, Json.asInteger, if_pos fits]
  rfl

theorem asInt_int {number : Int} (fits : -2 ^ 31 ≤ number ∧ number < 2 ^ 31) : (Json.int number).asInt = some number :=
  if_pos fits

section Numbers
variable {object : Json} {key : String}

theorem getUint64_of_find {number : Nat} (found : object.findMember key = some (.int number))
    (small : number < 2 ^ 64) (fallback : Nat) : object.getUint64 key fallback = number := by
  unfold Json.getUint64
  rw [found, Option.bind_some, asUint64_natCast small, Option.getD_some]

theorem getUint64_of_none (absent : object.findMember key = none) (fallback : Nat) :
    object.getUint64 key fallback = fallback := by
  unfold Json.getUint64
  rw [absent, Option.bind_none, Option.getD_none]

theorem getInt_of_find {number : Int} (found : object.findMember key = some (.int number))
    (fits : -2 ^ 31 ≤ number ∧ number < 2 ^ 31) (fallback : Int) : object.getInt key fallback = number := by
  unfold Json.getInt
  rw [found, Option.bind_some, asInt_int fits, Option.getD_some]

theorem getInt_of_none (absent : object.findMember key = none) (fallback : Int) :
    object.getInt key fallback = fallback := by
  unfold Json.getInt
  rw [absent, Option.bind_none, Option.getD_none]

end Numbers

theorem lookup_of_mem {members : List (String × Json)} (distinct : (members.map Prod.fst).Nodup) {key : String}
    {value : Json} (listed : (key, value) ∈ members) : members.lookup key = some value := by
  induction members with
  | nil => cases listed
  | cons first rest ih =>
    rw [List.map_cons, List.nodup_cons] at distinct
    rcases List.mem_cons.mp listed with rfl | later
    · rw [List.lookup_cons, beq_self_eq_true]
    · have other : key ≠ first.1 := fun same => distinct.1 (same ▸ List.mem_map_of_mem later)
      rw [List.lookup_cons, beq_false_of_ne other]
      exact ih distinct.2 later

theorem members_distinct (pool : Pool) : (pool.members.map Prod.fst).Nodup := by
  unfold members
  by_cases empty : pool.spendSecretKey.getD [] = []
  all_goals
    by_cases daemon : pool.mode = .daemon
    all_goals
      simp only [empty, daemon, if_true, if_false, List.map_append, List.map_cons, List.map_nil]
      decide

theorem findMember_of_mem {pool : Pool} {key : String} {value : Json} (listed : (key, value) ∈ pool.members) :
    pool.toJSON.findMember key = some value := lookup_of_mem pool.members_distinct listed

theorem findMember_of_not_mem {pool : Pool} {key : String} (absent : key ∉ pool.members.map Prod.fst) :
    pool.toJSON.findMember key = none := by
  refine List.lookup_eq_none_iff.mpr fun entry listed => ?_
  apply bne_iff_ne.mpr
  intro same
  exact absent (same ▸ List.mem_map_of_mem listed)

/-- The keys that may be written in daemon mode, and in the other ones. -/
def writtenKeys (daemon : Bool) : List String :=
  ["algo", "coin", "url", "user", "spend-secret-key", "enabled", "tls", "sni", "tls-fingerprint", "daemon", "socks5"] ++
    if daemon then ["daemon-poll-interval", "daemon-job-timeout", "daemon-zmq-port"]
    else ["pass", "rig-id", "nicehash", "keepalive", "self-select", "submit-to-origin"]

theorem members_keys (pool : Pool) : pool.members.map Prod.fst ⊆ writtenKeys (pool.mode = .daemon) := by
  unfold members
  by_cases empty : pool.spendSecretKey.getD [] = []
  all_goals
    by_cases daemon : pool.mode = .daemon
    all_goals
      simp only [empty, daemon, if_true, if_false, List.map_append, List.map_cons, List.map_nil]
      decide

theorem findMember_of_not_written {pool : Pool} {key : String} (absent : key ∉ writtenKeys (pool.mode = .daemon)) :
    pool.toJSON.findMember key = none :=
  findMember_of_not_mem fun listed => absent (pool.members_keys listed)

theorem Readable.key {pool : Pool} (readable : Readable pool) :
    (pool.toJSON.findMember "spend-secret-key").bind Json.asString =
      if pool.spendSecretKey.getD [] = [] then none else pool.spendSecretKey := by
  by_cases empty : pool.spendSecretKey.getD [] = []
  · have absent : pool.toJSON.findMember "spend-secret-key" = none := findMember_of_not_mem (by
      unfold members
      by_cases daemon : pool.mode = .daemon <;> simp [empty, daemon])
    rw [absent, if_pos empty]
    rfl
  · have listed : pool.toJSON.findMember "spend-secret-key" = some (stringJSON pool.spendSecretKey) :=
      findMember_of_mem (by simp [members, empty])
    rw [listed, if_neg empty]
    exact stringJSON_asString readable.spendSecretKey

theorem Readable.ofJSON_toJSON {pool : Pool} (readable : Readable pool) : ofJSON pool.toJSON = pool.written := by
  have secure : (pool.isTLS || pool.url.tls) = pool.tls := by
    have kept := readable.tls
    unfold isTLS
    cases secure : pool.url.tls with
    | false => simp
    | true => simp [kept secure]
  have hosted : (pool.nicehash || nicehashHost pool.url) = pool.nicehash := by
    have kept := readable.nicehash
    cases host : nicehashHost pool.url with
    | false => simp
    | true => simp [kept host]
  have algo : pool.toJSON.findMember "algo" = some pool.algorithm.toJSON := findMember_of_mem (by simp [members])
  have coin : pool.toJSON.findMember "coin" = some pool.coin.toJSON := findMember_of_mem (by simp [members])
  have url : pool.toJSON.findMember "url" = some (stringJSON pool.url.url) := findMember_of_mem (by simp [members])
  have user : pool.toJSON.findMember "user" = some (stringJSON pool.user) := findMember_of_mem (by simp [members])
  have enabled : pool.toJSON.findMember "enabled" = some (.bool pool.enabled) := findMember_of_mem (by simp [members])
  have tls : pool.toJSON.findMember "tls" = some (.bool pool.isTLS) := findMember_of_mem (by simp [members])
  have sni : pool.toJSON.findMember "sni" = some (.bool pool.sni) := findMember_of_mem (by simp [members])
  have print : pool.toJSON.findMember "tls-fingerprint" = some (stringJSON pool.fingerprint) :=
    findMember_of_mem (by simp [members])
  have isDaemon : pool.toJSON.findMember "daemon" = some (.bool (pool.mode = .daemon)) :=
    findMember_of_mem (by simp [members])
  have socks5 : pool.toJSON.findMember "socks5" = some (ProxyUrl.toJSON pool.proxy) :=
    findMember_of_mem (by simp [members])
  by_cases daemon : pool.mode = .daemon
  · have origin : pool.submitToOrigin = false := by
      by_contra kept
      have mode := readable.selfSelect.mpr (readable.submitToOrigin (by simpa using kept))
      rw [daemon] at mode
      cases mode
    have absent (key : String) (other : key ∉ writtenKeys true) : pool.toJSON.findMember key = none :=
      findMember_of_not_written (by simpa [daemon] using other)
    have poll : pool.toJSON.getUint64 "daemon-poll-interval" kDefaultPollInterval = pool.pollInterval :=
      getUint64_of_find (findMember_of_mem (by simp [members, daemon])) readable.pollInterval _
    have timeout : pool.toJSON.getUint64 "daemon-job-timeout" kDefaultJobTimeout = pool.jobTimeout :=
      getUint64_of_find (findMember_of_mem (by simp [members, daemon])) readable.jobTimeout _
    have zmq : pool.toJSON.getInt "daemon-zmq-port" (-1) = pool.zmqPort :=
      getInt_of_find (findMember_of_mem (by simp [members, daemon])) readable.zmqPort _
    have noPass := absent "pass" (by decide)
    have noRigId := absent "rig-id" (by decide)
    have noNicehash := absent "nicehash" (by decide)
    have noKeepalive := absent "keepalive" (by decide)
    have noSelfSelect := absent "self-select" (by decide)
    have noSubmit := absent "submit-to-origin" (by decide)
    have unset : Url.empty.parse none = Url.empty := rfl
    have invalid : Url.empty.isValid = false := rfl
    rw [ofJSON, written, if_pos daemon, Json.getString, url, Option.bind_some, readable.url, if_pos readable.valid]
    apply Pool.ext
    all_goals
      simp only [readable.key, Json.getString, Json.getBool, Json.getValue, algo, coin,
        user, enabled, tls, sni, print, isDaemon, socks5, poll, timeout, zmq, noPass, noRigId, noNicehash,
        noKeepalive, noSelfSelect, noSubmit, Option.bind_some, Option.bind_none,
        Option.getD_some, Option.getD_none, Json.asBool, if_true, readable.algorithm,
        readable.proxy, Coin.roundTrip, secure, stringJSON_asString readable.user,
        stringJSON_asString readable.fingerprint, unset, invalid, Bool.false_and,
        Bool.false_or, Bool.false_eq_true, if_false, daemon, decide_true, origin]
    rfl
  · have absent (key : String) (other : key ∉ writtenKeys false) : pool.toJSON.findMember key = none :=
      findMember_of_not_written (by simpa [daemon] using other)
    have pass : pool.toJSON.findMember "pass" = some (stringJSON pool.password) :=
      findMember_of_mem (by simp [members, daemon])
    have rigId : pool.toJSON.findMember "rig-id" = some (stringJSON pool.rigId) :=
      findMember_of_mem (by simp [members, daemon])
    have nicehash : pool.toJSON.findMember "nicehash" = some (.bool pool.nicehash) :=
      findMember_of_mem (by simp [members, daemon])
    have keepalive : pool.toJSON.findMember "keepalive" = some (keepAliveJSON pool.keepAlive) :=
      findMember_of_mem (by simp [members, daemon])
    have selfSelect : pool.toJSON.findMember "self-select" = some (stringJSON pool.daemon.url) :=
      findMember_of_mem (by simp [members, daemon])
    have submit : pool.toJSON.findMember "submit-to-origin" = some (.bool pool.submitToOrigin) :=
      findMember_of_mem (by simp [members, daemon])
    have noPoll := absent "daemon-poll-interval" (by decide)
    have noTimeout := absent "daemon-job-timeout" (by decide)
    have noZmq := absent "daemon-zmq-port" (by decide)
    have again : (if pool.daemon.url.isSome = true then pool.daemon else Url.empty).isValid = pool.daemon.isValid := by
      split
      · rfl
      · rename_i textless
        exact (Bool.eq_false_iff.mpr fun valid => textless (readable.daemonText valid)).symm
    have origin : (pool.daemon.isValid && pool.submitToOrigin) = pool.submitToOrigin := by
      cases submits : pool.submitToOrigin with
      | false => simp
      | true => simp [readable.submitToOrigin submits]
    have mode : (if pool.daemon.isValid = true then PoolMode.selfSelect else .pool) = pool.mode := by
      split
      · rename_i valid
        exact (readable.selfSelect.mpr valid).symm
      · rename_i invalid
        cases known : pool.mode with
        | pool => rfl
        | daemon => exact absurd known daemon
        | selfSelect => exact absurd (readable.selfSelect.mp known) invalid
    rw [ofJSON, written, if_neg daemon, Json.getString, url, Option.bind_some, readable.url, if_pos readable.valid]
    apply Pool.ext
    all_goals
      simp only [readable.key, Json.getString, Json.getBool, Json.getValue, algo, coin,
        user, enabled, tls, sni, print, isDaemon, socks5, pass, rigId, nicehash, keepalive, selfSelect, submit,
        getUint64_of_none noPoll, getUint64_of_none noTimeout, getInt_of_none noZmq, Option.bind_some,
        Option.getD_some,
        Json.asBool, readable.algorithm, readable.proxy, Coin.roundTrip, secure, hosted,
        stringJSON_asString readable.user, stringJSON_asString readable.fingerprint,
        stringJSON_asString readable.password, stringJSON_asString readable.rigId,
        keepAliveOf_keepAliveJSON readable.keepAlive, readable.daemon, daemon, decide_false, again, origin, mode,
        Bool.false_eq_true, if_false]

/-- The pools that nothing is dropped from. -/
structure Lossless (pool : Pool) : Prop where
  key : pool.spendSecretKey ≠ some []
  proxy : ProxyUrl.isValid pool.proxy = true ∨ pool.proxy = ProxyUrl.empty
  daemon : pool.mode = .daemon → pool.password = none ∧ pool.rigId = none ∧
    pool.nicehash = nicehashHost pool.url ∧ pool.keepAlive = 0 ∧ pool.daemon = Url.empty
  other : pool.mode ≠ .daemon → pool.pollInterval = kDefaultPollInterval ∧ pool.jobTimeout = kDefaultJobTimeout ∧
    pool.zmqPort = -1 ∧ (pool.daemon.url.isSome = true ∨ pool.daemon = Url.empty)

theorem dropEmpty_eq_iff (key : Option (List Byte)) : (if key.getD [] = [] then none else key) = key ↔ key ≠ some [] := by
  rcases key with _ | _ | ⟨char, rest⟩ <;> simp

theorem dropUnless_eq_iff {A : Type} (keep : Bool) (value fallback : A) :
    (if keep = true then value else fallback) = value ↔ keep = true ∨ value = fallback := by
  cases keep with
  | false => simp [eq_comm]
  | true => simp

theorem written_eq_iff (pool : Pool) : pool.written = pool ↔ Lossless pool := by
  by_cases daemon : pool.mode = .daemon
  · rw [written, if_pos daemon, Pool.ext_iff]
    simp only [dropEmpty_eq_iff, dropUnless_eq_iff, true_and, and_true]
    constructor
    · rintro ⟨keepAlive, proxy, nicehash, password, rigId, key, url⟩
      exact ⟨key, proxy, fun _ => ⟨password.symm, rigId.symm, nicehash.symm, keepAlive.symm, url.symm⟩,
        fun other => absurd daemon other⟩
    · rintro ⟨key, proxy, fields, -⟩
      obtain ⟨password, rigId, nicehash, keepAlive, url⟩ := fields daemon
      exact ⟨keepAlive.symm, proxy, nicehash.symm, password.symm, rigId.symm, key, url.symm⟩
  · rw [written, if_neg daemon, Pool.ext_iff]
    simp only [dropEmpty_eq_iff, dropUnless_eq_iff, true_and]
    constructor
    · rintro ⟨proxy, key, poll, timeout, url, zmq⟩
      exact ⟨key, proxy, fun other => absurd other daemon, fun _ => ⟨poll.symm, timeout.symm, zmq.symm, url⟩⟩
    · rintro ⟨key, proxy, -, fields⟩
      obtain ⟨poll, timeout, zmq, url⟩ := fields daemon
      exact ⟨proxy, key, poll.symm, timeout.symm, url, zmq.symm⟩

/-- `isEqual` and the three fields that it leaves out. -/
def Same (pool other : Pool) : Prop :=
  pool.isEqual other = true ∧ pool.zmqPort = other.zmqPort ∧ pool.spendSecretKey = other.spendSecretKey ∧
    pool.submitToOrigin = other.submitToOrigin

theorem same_iff (pool other : Pool) : Same pool other ↔ pool = other := by
  constructor
  · intro same
    simp only [Same, isEqual, Url.isEqual, Bool.and_eq_true, decide_eq_true_eq] at same
    apply Pool.ext <;> simp only [same]
  · rintro rfl
    simp [Same, isEqual, Url.isEqual]

/-- A valid pool comes back from its JSON as what its mode writes, and it comes back unchanged
exactly if nothing is dropped from it. -/
theorem ofJSON_roundTrip (object : Json) (valid : (ofJSON object).isValid = true) :
    ofJSON (ofJSON object).toJSON = (ofJSON object).written ∧
      (Same (ofJSON (ofJSON object).toJSON) (ofJSON object) ↔ Lossless (ofJSON object)) := by
  have again := (readable_ofJSON valid).ofJSON_toJSON
  refine ⟨again, ?_⟩
  rw [same_iff, again, written_eq_iff]

def daemonWithPass : Json :=
  .obj [("url", .str (text "node:18081")), ("daemon", .bool true), ("pass", .str (text "x"))]

theorem ofJSON_roundTrip_daemon :
    (ofJSON daemonWithPass).isValid = true ∧
      ofJSON (ofJSON daemonWithPass).toJSON = (ofJSON daemonWithPass).written ∧
      (Same (ofJSON (ofJSON daemonWithPass).toJSON) (ofJSON daemonWithPass) ↔ Lossless (ofJSON daemonWithPass)) := by
  have valid : (ofJSON daemonWithPass).isValid = true := by decide
  exact ⟨valid, ofJSON_roundTrip daemonWithPass valid⟩

/-- The password of a daemon is lost, and so is the poll interval of a pool. -/
theorem not_ofJSON_roundTrip :
    ((ofJSON daemonWithPass).isValid = true ∧
      (ofJSON (ofJSON daemonWithPass).toJSON).isEqual (ofJSON daemonWithPass) = false) ∧
    ((ofJSON (.obj [("url", .str (text "pool:3333")), ("daemon-poll-interval", .int 500)])).isValid = true ∧
      (ofJSON (ofJSON (.obj [("url", .str (text "pool:3333")), ("daemon-poll-interval", .int 500)])).toJSON).isEqual
        (ofJSON (.obj [("url", .str (text "pool:3333")), ("daemon-poll-interval", .int 500)])) = false) := by
  decide

end Pool

end Xmrig
