import Xmrig.Net.Dns
import Xmrig.Stratum.Pools

/-! The configuration, its JSON and the way back.

The parts with code of their own, from the certificate to the threads of the
graphics devices, are left open: each is read from its value and writes one.
-/

set_option autoImplicit false

namespace Xmrig

/-- A part of the configuration that is read and written as one value. -/
structure Codec (A : Type) where
  fresh : A
  read : Json → A → A
  toJSON : A → Json

/-- A value that comes back from its JSON. -/
def Codec.Stable {A : Type} (codec : Codec A) (value : A) : Prop := codec.read (codec.toJSON value) codec.fresh = value

structure ConfigParts where
  bench : BenchCodec
  Tls : Type
  tls : Codec Tls
  Rx : Type
  rx : Codec Rx
  Cpu : Type
  cpu : Codec Cpu
  Ocl : Type
  ocl : Codec Ocl
  Cuda : Type
  cuda : Codec Cuda

/-- `Http`. -/
structure HttpConfig where
  enabled : Bool := false
  restricted : Bool := true
  host : List Byte := text "127.0.0.1"
  token : Option (List Byte) := none
  port : Nat := 0

namespace HttpConfig

def setPort (http : HttpConfig) (port : Int) : HttpConfig :=
  if 0 ≤ port ∧ port ≤ 65536 then { http with port := port.toNat % 65536 } else http

def load (http : HttpConfig) (value : Json) : HttpConfig :=
  if value.isObject then
    setPort
      { http with
        enabled := value.getBool "enabled" false
        restricted := value.getBool "restricted" true
        host := (value.getString "host").getD (text "127.0.0.1")
        token := value.getString "access-token" }
      (value.getInt "port" 0)
  else http

def toJSON (http : HttpConfig) : Json :=
  .obj [("enabled", .bool http.enabled), ("host", .str http.host), ("port", .int http.port),
    ("access-token", stringJSON http.token), ("restricted", .bool http.restricted)]

end HttpConfig

structure Title where
  enabled : Bool := true
  value : Option (List Byte) := none

def Title.ofJSON (value : Json) : Title :=
  match value with
  | .bool enabled => { enabled }
  | .str chars => { value := some (Json.cString chars) }
  | _ => {}

def Title.toJSON (title : Title) : Json :=
  if title.enabled = true ∧ title.value ≠ none then stringJSON title.value else .bool title.enabled

/-- A `uint32_t`. -/
def Json.getUint32 (reader : Json) (key : String) (fallback : BitVec 32) : BitVec 32 :=
  BitVec.ofNat 32 (reader.getUint key fallback.toNat)

def DnsConfig.ofJSON (value : Json) : DnsConfig :=
  let ipv := value.getUint32 "ip_version" 0
  { ipv := if ipv = 0 ∨ ipv = 4 ∨ ipv = 6 then ipv else 0
    ttlSeconds := if value.getUint32 "ttl" 30 = 0 then 1 else value.getUint32 "ttl" 30 }

def DnsConfig.toJSON (config : DnsConfig) : Json :=
  .obj [("ip_version", .int config.ipv.toNat), ("ttl", .int config.ttlSeconds.toNat)]

/-- The settings of `BaseConfig`, of `Config` and of the log. -/
@[ext] structure Config (parts : ConfigParts) where
  autoSave : Bool := true
  background : Bool := false
  dryRun : Bool := false
  syslog : Bool := false
  watch : Bool := true
  logFile : Option (List Byte) := none
  userAgent : Option (List Byte) := none
  printTime : BitVec 32 := 60
  title : Title := {}
  tls : parts.Tls := parts.tls.fresh
  colors : Bool := true
  verbose : BitVec 32 := 0
  apiId : Option (List Byte) := none
  apiWorkerId : Option (List Byte) := none
  http : HttpConfig := {}
  pools : Pools parts.bench := {}
  dns : DnsConfig := {}
  pauseOnBattery : Bool := false
  idleSeconds : BitVec 32 := 0
  cpu : parts.Cpu := parts.cpu.fresh
  rx : parts.Rx := parts.rx.fresh
  cl : parts.Ocl := parts.ocl.fresh
  cuda : parts.Cuda := parts.cuda.fresh
  healthPrintTime : BitVec 32 := 60
  dmi : Bool := true
  webConfigUrl : List Byte := []
  cpuHighPause : BitVec 32 := 95
  cpuLowResume : BitVec 32 := 30
  cpuControlInterval : BitVec 32 := 3
  cpuResumeDelay : BitVec 32 := 30
  processPauseNames : List Byte := []
  windowPauseNames : List Byte := []
  reportHost : List Byte := []
  reportPort : BitVec 16 := 8181
  reportPath : List Byte := []
  reportToken : List Byte := []
  donateAddress : List Byte := []
  donateUseUserPool : Bool := true

namespace Config
variable {parts : ConfigParts}

/-- `setVerbose`. -/
def verboseOf (value : Json) (old : BitVec 32) : BitVec 32 :=
  match value.asBool, value.asUint with
  | some enable, _ => if enable then 1 else 0
  | none, some level => BitVec.ofNat 32 level
  | none, none => old

/-- `setIdleTime`: a switch for the default, or seconds. -/
def idleOf (value : Json) (old : BitVec 32) : BitVec 32 :=
  match value.asBool, value.asUint with
  | some enable, _ => if enable then 60 else 0
  | none, some seconds => BitVec.ofNat 32 seconds
  | none, none => old

/-- `idleTime()`, in milliseconds. -/
def idleTime (config : Config parts) : BitVec 32 := config.idleSeconds * 1000

/-- A `std::string` that is set if the value is a string. -/
def stringOr (reader : Json) (key : String) (old : List Byte) : List Byte := (reader.getString key).getD old

/-- `std::min`. -/
def minUint (value bound : BitVec 32) : BitVec 32 := if bound < value then bound else value

/-- `BaseConfig::read` up to its result. -/
def readBase (config : Config parts) (reader : Json) : Config parts :=
  let api := reader.getObject "api"
  { config with
    autoSave := reader.getBool "autosave" config.autoSave
    background := reader.getBool "background" config.background
    dryRun := reader.getBool "dry-run" config.dryRun
    syslog := reader.getBool "syslog" config.syslog
    watch := reader.getBool "watch" config.watch
    logFile := reader.getString "log-file"
    userAgent := reader.getString "user-agent"
    printTime := minUint (reader.getUint32 "print-time" config.printTime) 3600
    title := Title.ofJSON (reader.getValue "title")
    tls := parts.tls.read (reader.getValue "tls") parts.tls.fresh
    colors := reader.getBool "colors" config.colors
    verbose := verboseOf (reader.getValue "verbose") config.verbose
    apiId := if api.isObject then api.getString "id" else config.apiId
    apiWorkerId := if api.isObject then api.getString "worker-id" else config.apiWorkerId
    http := config.http.load (reader.getObject "http")
    pools := config.pools.load reader
    dns := DnsConfig.ofJSON (reader.getObject "dns") }

/-- The part of `Config::read` behind `BaseConfig::read`. -/
def readOwn (config : Config parts) (reader : Json) : Config parts :=
  { config with
    pauseOnBattery := reader.getBool "pause-on-battery" config.pauseOnBattery
    idleSeconds := idleOf (reader.getValue "pause-on-active") config.idleSeconds
    cpu := parts.cpu.read (reader.getValue "cpu") config.cpu
    rx := parts.rx.read (reader.getValue "randomx") config.rx
    cl := if config.pools.benchmark.isSome then config.cl else parts.ocl.read (reader.getValue "opencl") config.cl
    cuda := if config.pools.benchmark.isSome then config.cuda else parts.cuda.read (reader.getValue "cuda") config.cuda
    healthPrintTime := reader.getUint32 "health-print-time" config.healthPrintTime
    dmi := reader.getBool "dmi" config.dmi
    webConfigUrl := stringOr reader "web-config-url" config.webConfigUrl
    cpuHighPause := reader.getUint32 "cpu-high-pause" config.cpuHighPause
    cpuLowResume := reader.getUint32 "cpu-low-resume" config.cpuLowResume
    cpuControlInterval := reader.getUint32 "cpu-control-interval" config.cpuControlInterval
    cpuResumeDelay := reader.getUint32 "cpu-resume-delay" config.cpuResumeDelay
    processPauseNames := stringOr reader "process-pause-names" config.processPauseNames
    windowPauseNames := stringOr reader "window-pause-names" config.windowPauseNames
    reportHost := stringOr reader "report-host" config.reportHost
    reportPort := BitVec.ofNat 16 (reader.getUint "report-port" config.reportPort.toNat)
    reportPath := stringOr reader "report-path" config.reportPath
    reportToken := stringOr reader "report-token" config.reportToken
    donateAddress := stringOr reader "donate-address" config.donateAddress
    donateUseUserPool := reader.getBool "donate-use-user-pool" config.donateUseUserPool }

/-- `reader.isEmpty()`. -/
def isEmpty (reader : Json) : Bool :=
  match reader with
  | .obj members => members.isEmpty
  | _ => true

/-- `Config::read`, with nothing for a document that is refused. -/
def read (config : Config parts) (reader : Json) : Option (Config parts) :=
  if isEmpty reader = true ∨ (config.readBase reader).pools.active = 0 then none
  else some ((config.readBase reader).readOwn reader)

def frontMembers (config : Config parts) : List (String × Json) :=
  [("api", .obj [("id", stringJSON config.apiId), ("worker-id", stringJSON config.apiWorkerId)]),
    ("http", config.http.toJSON), ("autosave", .bool config.autoSave), ("background", .bool config.background),
    ("colors", .bool config.colors), ("title", config.title.toJSON), ("randomx", parts.rx.toJSON config.rx),
    ("cpu", parts.cpu.toJSON config.cpu), ("opencl", parts.ocl.toJSON config.cl),
    ("cuda", parts.cuda.toJSON config.cuda), ("log-file", stringJSON config.logFile)]

def backMembers (config : Config parts) : List (String × Json) :=
  [("print-time", .int config.printTime.toNat), ("health-print-time", .int config.healthPrintTime.toNat),
    ("dmi", .bool config.dmi), ("syslog", .bool config.syslog), ("tls", parts.tls.toJSON config.tls),
    ("dns", config.dns.toJSON), ("user-agent", stringJSON config.userAgent), ("verbose", .int config.verbose.toNat),
    ("watch", .bool config.watch), ("pause-on-battery", .bool config.pauseOnBattery),
    ("pause-on-active", .int config.idleTime.toNat)]

def getJSON (config : Config parts) : Json :=
  .obj (config.frontMembers ++ (config.pools.members ++ config.backMembers))

/-! ## Reading back -/

section Find
variable {document : Json} {key : String}

theorem getBool_of_find {value : Bool} (found : document.findMember key = some (.bool value)) (fallback : Bool) :
    document.getBool key fallback = value := by
  unfold Json.getBool
  rw [found]
  rfl

theorem getBool_of_none (absent : document.findMember key = none) (fallback : Bool) :
    document.getBool key fallback = fallback := by
  unfold Json.getBool
  rw [absent]
  rfl

theorem getString_of_find {chars : Option (List Byte)} (found : document.findMember key = some (stringJSON chars))
    (terminated : Pool.Terminated chars) : document.getString key = chars := by
  unfold Json.getString
  rw [found]
  exact Pool.stringJSON_asString terminated

theorem stringOr_of_none (absent : document.findMember key = none) (old : List Byte) :
    stringOr document key old = old := by
  unfold stringOr Json.getString
  rw [absent]
  rfl

theorem getValue_of_find {value : Json} (found : document.findMember key = some value) :
    document.getValue key = value := by
  unfold Json.getValue
  rw [found]
  rfl

theorem getObject_of_find {members : List (String × Json)} (found : document.findMember key = some (.obj members)) :
    document.getObject key = .obj members := by
  unfold Json.getObject
  rw [found]
  rfl

theorem asUint_natCast {number : Nat} (small : number < 2 ^ 32) : (Json.int number).asUint = some number := by
  have fits : (0 : Int) ≤ number ∧ (number : Int) < 2 ^ 32 := by omega
  rw [Json.asUint, Json.asInteger, if_pos fits]
  rfl

theorem getUint_of_none (absent : document.findMember key = none) (fallback : Nat) :
    document.getUint key fallback = fallback := by
  unfold Json.getUint
  rw [absent]
  rfl

theorem getUint32_of_find {value : BitVec 32} (found : document.findMember key = some (.int value.toNat))
    (fallback : BitVec 32) : document.getUint32 key fallback = value := by
  unfold Json.getUint32 Json.getUint
  rw [found, Option.bind_some, asUint_natCast value.isLt, Option.getD_some, BitVec.ofNat_toNat, BitVec.setWidth_eq]

theorem getUint32_of_none (absent : document.findMember key = none) (fallback : BitVec 32) :
    document.getUint32 key fallback = fallback := by
  rw [Json.getUint32, getUint_of_none absent, BitVec.ofNat_toNat, BitVec.setWidth_eq]

theorem verboseOf_of_uint {value : Json} {number : Nat} (noBool : value.asBool = none)
    (uint : value.asUint = some number) (old : BitVec 32) : verboseOf value old = BitVec.ofNat 32 number := by
  unfold verboseOf
  rw [noBool, uint]

theorem idleOf_of_uint {value : Json} {number : Nat} (noBool : value.asBool = none)
    (uint : value.asUint = some number) (old : BitVec 32) : idleOf value old = BitVec.ofNat 32 number := by
  unfold idleOf
  rw [noBool, uint]

end Find

/-! The settings that are no plain values. -/

theorem title_roundTrip (value : Json) : Title.ofJSON (Title.ofJSON value).toJSON = Title.ofJSON value := by
  cases value with
  | bool enabled => cases enabled <;> rfl
  | str chars =>
    simp only [Title.ofJSON, Title.toJSON, stringJSON]
    rw [if_pos ⟨trivial, Option.some_ne_none _⟩]
    simp only [Json.cString, List.takeWhile_idem]
  | _ => rfl

theorem dns_roundTrip (value : Json) : DnsConfig.ofJSON (DnsConfig.ofJSON value).toJSON = DnsConfig.ofJSON value := by
  have kept : ∀ config : DnsConfig, (config.ipv = 0 ∨ config.ipv = 4 ∨ config.ipv = 6) → config.ttlSeconds ≠ 0 →
      DnsConfig.ofJSON config.toJSON = config := by
    intro config version positive
    have ipv : config.toJSON.getUint32 "ip_version" 0 = config.ipv := getUint32_of_find rfl _
    have ttl : config.toJSON.getUint32 "ttl" 30 = config.ttlSeconds := getUint32_of_find rfl _
    simp only [DnsConfig.ofJSON, ipv, ttl, if_pos version, if_neg positive]
  apply kept
  · simp only [DnsConfig.ofJSON]
    split
    · assumption
    · exact .inl rfl
  · simp only [DnsConfig.ofJSON]
    split
    · decide
    · assumption

theorem setPort_port_lt (http : HttpConfig) (small : http.port < 65536) (port : Int) : (http.setPort port).port < 65536 := by
  unfold HttpConfig.setPort
  split
  · exact Nat.mod_lt _ (by decide)
  · exact small

theorem terminated_getD (object : Json) (key : String) {fallback : List Byte}
    (terminated : Json.cString fallback = fallback) : Pool.Terminated (some ((object.getString key).getD fallback)) := by
  intro chars same
  cases read : object.getString key with
  | none => simp_all
  | some found =>
    have := Pool.terminated_getString object key found read
    simp_all

theorem http_roundTrip (value : Json) :
    HttpConfig.load {} (HttpConfig.load {} value).toJSON = HttpConfig.load {} value := by
  have kept : ∀ http : HttpConfig, Pool.Terminated (some http.host) → Pool.Terminated http.token → http.port < 65536 →
      HttpConfig.load {} http.toJSON = http := by
    intro http host token small
    have enabled : http.toJSON.getBool "enabled" false = http.enabled := getBool_of_find rfl _
    have restricted : http.toJSON.getBool "restricted" true = http.restricted := getBool_of_find rfl _
    have hostRead : http.toJSON.getString "host" = some http.host := getString_of_find rfl host
    have tokenRead : http.toJSON.getString "access-token" = http.token := getString_of_find rfl token
    have portRead : http.toJSON.getInt "port" 0 = http.port := Pool.getInt_of_find rfl (by omega) 0
    have inside : (0 : Int) ≤ http.port ∧ (http.port : Int) ≤ 65536 := by omega
    rw [HttpConfig.load, if_pos (show http.toJSON.isObject = true from rfl), enabled, restricted, hostRead, tokenRead,
      portRead, HttpConfig.setPort, if_pos inside, Int.toNat_natCast, Nat.mod_eq_of_lt small, Option.getD_some]
  have ported : ∀ (http : HttpConfig) (port : Int), (http.setPort port).host = http.host ∧
      (http.setPort port).token = http.token := by
    intro http port
    unfold HttpConfig.setPort
    split <;> exact ⟨rfl, rfl⟩
  unfold HttpConfig.load
  split
  · apply kept
    · rw [(ported _ _).1]
      exact terminated_getD value "host" (by decide)
    · rw [(ported _ _).2]
      exact Pool.terminated_getString value "access-token"
    · exact setPort_port_lt _ (Nat.zero_lt_succ _) _
  · rfl

/-! ## The document -/

def keysWith (keys : List String) : List String :=
  ["api", "http", "autosave", "background", "colors", "title", "randomx", "cpu", "opencl", "cuda", "log-file"] ++
    (keys ++
      ["print-time", "health-print-time", "dmi", "syslog", "tls", "dns", "user-agent", "verbose", "watch",
        "pause-on-battery", "pause-on-active"])

def poolsKeys : List String := ["benchmark", "donate-level", "donate-over-proxy", "pools", "retries", "retry-pause"]

theorem poolsMembers_keys (pools : Pools parts.bench) : (pools.members.map Prod.fst).Sublist poolsKeys := by
  unfold Pools.members
  cases pools.benchmark with
  | some benchmark => exact .cons_cons _ (List.nil_sublist _)
  | none => exact .cons _ (List.Sublist.refl _)

theorem getJSON_keys (config : Config parts) :
    (config.frontMembers ++ (config.pools.members ++ config.backMembers)).map Prod.fst =
      keysWith (config.pools.members.map Prod.fst) := by
  rw [List.map_append, List.map_append]
  rfl

theorem keysWith_sublist (config : Config parts) :
    (keysWith (config.pools.members.map Prod.fst)).Sublist (keysWith poolsKeys) :=
  (List.Sublist.refl _).append ((poolsMembers_keys config.pools).append (List.Sublist.refl _))

theorem getJSON_distinct (config : Config parts) :
    ((config.frontMembers ++ (config.pools.members ++ config.backMembers)).map Prod.fst).Nodup := by
  rw [getJSON_keys]
  exact (keysWith_sublist config).nodup (by decide)

section Members
variable {config : Config parts} {key : String}

theorem find_front {value : Json} (listed : (key, value) ∈ config.frontMembers) :
    config.getJSON.findMember key = some value :=
  Pool.lookup_of_mem config.getJSON_distinct (List.mem_append_left _ listed)

theorem find_back {value : Json} (listed : (key, value) ∈ config.backMembers) :
    config.getJSON.findMember key = some value :=
  Pool.lookup_of_mem config.getJSON_distinct (List.mem_append_right _ (List.mem_append_right _ listed))

theorem find_none (absent : key ∉ keysWith poolsKeys) : config.getJSON.findMember key = none := by
  refine List.lookup_eq_none_iff.mpr fun entry listed => ?_
  apply bne_iff_ne.mpr
  intro same
  apply absent
  apply (keysWith_sublist config).subset
  rw [← getJSON_keys, same]
  exact List.mem_map_of_mem listed

theorem find_pools (listed : key ∈ poolsKeys) : config.getJSON.findMember key = config.pools.members.lookup key := by
  cases found : config.pools.members.lookup key with
  | some value =>
    apply Pool.lookup_of_mem config.getJSON_distinct
    apply List.mem_append_right
    apply List.mem_append_left
    obtain ⟨front, back, same, -⟩ := List.lookup_eq_some_iff.mp found
    rw [same]
    exact List.mem_append_right _ (.head _)
  | none =>
    refine List.lookup_eq_none_iff.mpr fun entry member => ?_
    apply bne_iff_ne.mpr
    rintro rfl
    rcases List.mem_append.mp member with front | member
    · have other : entry.1 ∉ config.frontMembers.map Prod.fst := by
        have apart : ∀ name ∈ poolsKeys, name ∉ config.frontMembers.map Prod.fst := by
          show ∀ name ∈ poolsKeys, name ∉ ["api", "http", "autosave", "background", "colors", "title", "randomx", "cpu",
            "opencl", "cuda", "log-file"]
          decide
        exact apart _ listed
      exact other (List.mem_map_of_mem front)
    · rcases List.mem_append.mp member with own | back
      · exact absurd (beq_self_eq_true entry.1) (by simpa using List.lookup_eq_none_iff.mp found entry own)
      · have apart : ∀ name ∈ poolsKeys, name ∉ config.backMembers.map Prod.fst := by
          show ∀ name ∈ poolsKeys, name ∉ ["print-time", "health-print-time", "dmi", "syslog", "tls", "dns", "user-agent",
            "verbose", "watch", "pause-on-battery", "pause-on-active"]
          decide
        exact apart _ listed (List.mem_map_of_mem back)

end Members

def written (config : Config parts) : Config parts :=
  let pools := config.pools.written config.dmi
  { autoSave := config.autoSave
    background := config.background
    syslog := config.syslog
    watch := config.watch
    logFile := config.logFile
    userAgent := config.userAgent
    printTime := config.printTime
    title := config.title
    tls := parts.tls.read (parts.tls.toJSON config.tls) parts.tls.fresh
    colors := config.colors
    verbose := config.verbose
    apiId := config.apiId
    apiWorkerId := config.apiWorkerId
    http := config.http
    pools
    dns := config.dns
    pauseOnBattery := config.pauseOnBattery
    idleSeconds := config.idleTime
    cpu := parts.cpu.read (parts.cpu.toJSON config.cpu) parts.cpu.fresh
    rx := parts.rx.read (parts.rx.toJSON config.rx) parts.rx.fresh
    cl := if pools.benchmark.isSome then parts.ocl.fresh else parts.ocl.read (parts.ocl.toJSON config.cl) parts.ocl.fresh
    cuda :=
      if pools.benchmark.isSome then parts.cuda.fresh else parts.cuda.read (parts.cuda.toJSON config.cuda) parts.cuda.fresh
    healthPrintTime := config.healthPrintTime
    dmi := config.dmi }

/-- What holds of every configuration that was read. -/
structure Readable (config : Config parts) : Prop where
  logFile : Pool.Terminated config.logFile
  userAgent : Pool.Terminated config.userAgent
  printTime : minUint config.printTime 3600 = config.printTime
  title : Title.ofJSON config.title.toJSON = config.title
  apiId : Pool.Terminated config.apiId
  apiWorkerId : Pool.Terminated config.apiWorkerId
  http : HttpConfig.load {} config.http.toJSON = config.http
  dns : DnsConfig.ofJSON config.dns.toJSON = config.dns
  pools : config.pools.Readable
  benchmark : ∀ bench, config.pools.benchmark = some bench →
    config.pools = { benchmark := some bench } ∧ config.cl = parts.ocl.fresh ∧ config.cuda = parts.cuda.fresh
  active : config.pools.active ≠ 0

theorem minUint_minUint (value bound : BitVec 32) : minUint (minUint value bound) bound = minUint value bound := by
  unfold minUint
  by_cases above : bound < value
  · rw [if_pos above, if_neg (BitVec.lt_irrefl bound)]
  · rw [if_neg above, if_neg above]

theorem read_eq {document : Json} {config : Config parts} (accepted : read {} document = some config) :
    config = (readBase {} document).readOwn document ∧ (readBase ({} : Config parts) document).pools.active ≠ 0 := by
  unfold read at accepted
  split at accepted
  · cases accepted
  · rename_i open_
    exact ⟨(Option.some.inj accepted).symm, fun none_ => open_ (.inr none_)⟩

theorem readable_of_read {document : Json} {config : Config parts} (accepted : read {} document = some config) :
    config.Readable := by
  obtain ⟨rfl, active⟩ := read_eq accepted
  have ofApi : ∀ key, Pool.Terminated
      (if (document.getObject "api").isObject then (document.getObject "api").getString key else none) := by
    intro key
    split
    · exact Pool.terminated_getString _ _
    · intro chars impossible
      cases impossible
  refine
    { logFile := Pool.terminated_getString _ _
      userAgent := Pool.terminated_getString _ _
      printTime := minUint_minUint _ _
      title := title_roundTrip _
      apiId := ofApi "id"
      apiWorkerId := ofApi "worker-id"
      http := http_roundTrip _
      dns := dns_roundTrip _
      pools := Pools.load_readable document
      benchmark := ?_
      active }
  intro bench chosen
  have some_ : (Pools.load ({} : Pools parts.bench) document).benchmark.isSome = true := by
    rw [show (Pools.load ({} : Pools parts.bench) document).benchmark = some bench from chosen, Option.isSome_some]
  exact ⟨Pools.load_benchmark chosen, if_pos some_, if_pos some_⟩

section Again
variable {config : Config parts}

theorem Readable.readBase_getJSON (readable : config.Readable) :
    readBase {} config.getJSON =
      { ({} : Config parts) with
        autoSave := config.autoSave
        background := config.background
        syslog := config.syslog
        watch := config.watch
        logFile := config.logFile
        userAgent := config.userAgent
        printTime := config.printTime
        title := config.title
        tls := parts.tls.read (parts.tls.toJSON config.tls) parts.tls.fresh
        colors := config.colors
        verbose := config.verbose
        apiId := config.apiId
        apiWorkerId := config.apiWorkerId
        http := config.http
        pools := config.pools.written config.dmi
        dns := config.dns } := by
  have api := getObject_of_find (show config.getJSON.findMember "api" = some (.obj _) from find_front (.head _))
  have isApi : (config.getJSON.getObject "api").isObject = true := by
    rw [api]
    rfl
  have apiId : (config.getJSON.getObject "api").getString "id" = config.apiId := by
    rw [api]
    exact getString_of_find rfl readable.apiId
  have apiWorkerId : (config.getJSON.getObject "api").getString "worker-id" = config.apiWorkerId := by
    rw [api]
    exact getString_of_find rfl readable.apiWorkerId
  have http : config.getJSON.getObject "http" = config.http.toJSON :=
    getObject_of_find (find_front (by simp [frontMembers, HttpConfig.toJSON]))
  have dns : config.getJSON.getObject "dns" = config.dns.toJSON :=
    getObject_of_find (find_back (by simp [backMembers, DnsConfig.toJSON]))
  have autoSave : config.getJSON.getBool "autosave" true = config.autoSave :=
    getBool_of_find (find_front (by simp [frontMembers])) _
  have background : config.getJSON.getBool "background" false = config.background :=
    getBool_of_find (find_front (by simp [frontMembers])) _
  have colors : config.getJSON.getBool "colors" true = config.colors :=
    getBool_of_find (find_front (by simp [frontMembers])) _
  have syslog : config.getJSON.getBool "syslog" false = config.syslog :=
    getBool_of_find (find_back (by simp [backMembers])) _
  have watch : config.getJSON.getBool "watch" true = config.watch :=
    getBool_of_find (find_back (by simp [backMembers])) _
  have dmi : config.getJSON.getBool "dmi" true = config.dmi :=
    getBool_of_find (find_back (by simp [backMembers])) _
  have dryRun : config.getJSON.getBool "dry-run" false = false := getBool_of_none (find_none (by decide)) _
  have logFile : config.getJSON.getString "log-file" = config.logFile :=
    getString_of_find (find_front (by simp [frontMembers])) readable.logFile
  have userAgent : config.getJSON.getString "user-agent" = config.userAgent :=
    getString_of_find (find_back (by simp [backMembers])) readable.userAgent
  have printTime : config.getJSON.getUint32 "print-time" 60 = config.printTime :=
    getUint32_of_find (find_back (by simp [backMembers])) _
  have title : config.getJSON.getValue "title" = config.title.toJSON :=
    getValue_of_find (find_front (by simp [frontMembers]))
  have tls : config.getJSON.getValue "tls" = parts.tls.toJSON config.tls :=
    getValue_of_find (find_back (by simp [backMembers]))
  have verbose : config.getJSON.getValue "verbose" = .int config.verbose.toNat :=
    getValue_of_find (find_back (by simp [backMembers]))
  have pools := readable.pools.load_members dmi fun key listed => find_pools listed
  have level : verboseOf (.int config.verbose.toNat) 0 = config.verbose := by
    rw [verboseOf_of_uint rfl (asUint_natCast config.verbose.isLt), BitVec.ofNat_toNat, BitVec.setWidth_eq]
  simp only [readBase, isApi, apiId, apiWorkerId, http, dns, autoSave, background, colors, syslog, watch, dryRun, logFile,
    userAgent, printTime, title, tls, verbose, pools, level, readable.printTime, readable.title, readable.http,
    readable.dns, if_true]

theorem Readable.read_getJSON (readable : config.Readable) :
    read {} config.getJSON = if config.written.pools.active = 0 then none else some config.written := by
  have battery : config.getJSON.getBool "pause-on-battery" false = config.pauseOnBattery :=
    getBool_of_find (find_back (by simp [backMembers])) _
  have active : config.getJSON.getValue "pause-on-active" = .int config.idleTime.toNat :=
    getValue_of_find (find_back (by simp [backMembers]))
  have cpu : config.getJSON.getValue "cpu" = parts.cpu.toJSON config.cpu :=
    getValue_of_find (find_front (by simp [frontMembers]))
  have rx : config.getJSON.getValue "randomx" = parts.rx.toJSON config.rx :=
    getValue_of_find (find_front (by simp [frontMembers]))
  have cl : config.getJSON.getValue "opencl" = parts.ocl.toJSON config.cl :=
    getValue_of_find (find_front (by simp [frontMembers]))
  have cuda : config.getJSON.getValue "cuda" = parts.cuda.toJSON config.cuda :=
    getValue_of_find (find_front (by simp [frontMembers]))
  have health : config.getJSON.getUint32 "health-print-time" 60 = config.healthPrintTime :=
    getUint32_of_find (find_back (by simp [backMembers])) _
  have dmi : config.getJSON.getBool "dmi" true = config.dmi :=
    getBool_of_find (find_back (by simp [backMembers])) _
  have seconds : idleOf (.int config.idleTime.toNat) 0 = config.idleTime := by
    rw [idleOf_of_uint rfl (asUint_natCast config.idleTime.isLt), BitVec.ofNat_toNat, BitVec.setWidth_eq]
  have absent : ∀ key ∈ ["web-config-url", "cpu-high-pause", "cpu-low-resume", "cpu-control-interval",
      "cpu-resume-delay", "process-pause-names", "window-pause-names", "report-host", "report-port", "report-path",
      "report-token", "donate-address", "donate-use-user-pool"], config.getJSON.findMember key = none := by
    intro key listed
    apply find_none
    revert key
    decide
  have result : readOwn (readBase {} config.getJSON) config.getJSON = config.written := by
    rw [readable.readBase_getJSON]
    simp only [readOwn, written, battery, active, cpu, rx, cl, cuda, health, dmi, seconds,
      stringOr_of_none (absent "web-config-url" (by decide)), getUint32_of_none (absent "cpu-high-pause" (by decide)),
      getUint32_of_none (absent "cpu-low-resume" (by decide)), getUint32_of_none (absent "cpu-control-interval" (by decide)),
      getUint32_of_none (absent "cpu-resume-delay" (by decide)),
      stringOr_of_none (absent "process-pause-names" (by decide)), stringOr_of_none (absent "window-pause-names" (by decide)),
      stringOr_of_none (absent "report-host" (by decide)), getUint_of_none (absent "report-port" (by decide)),
      stringOr_of_none (absent "report-path" (by decide)), stringOr_of_none (absent "report-token" (by decide)),
      stringOr_of_none (absent "donate-address" (by decide)), getBool_of_none (absent "donate-use-user-pool" (by decide)),
      BitVec.ofNat_toNat, BitVec.setWidth_eq]
  have base : (readBase {} config.getJSON).pools = config.written.pools := by
    rw [readable.readBase_getJSON]
    rfl
  rw [read, base, result]
  by_cases inactive : config.written.pools.active = 0
  · rw [if_pos (.inr inactive), if_pos inactive]
  · rw [if_neg inactive, if_neg]
    rintro (empty | none_)
    · cases empty
    · exact inactive none_

end Again

/-! ## What comes back -/

/-- The settings as the program uses them: the idle time in milliseconds. -/
def effective (config : Config parts) : Config parts := { config with idleSeconds := config.idleTime }

theorem effective_pools (config : Config parts) : config.effective.pools = config.pools := rfl

/-- The documents that nothing is dropped from. -/
structure Kept (parts : ConfigParts) (document : Json) : Prop where
  dryRun : document.getBool "dry-run" false = false
  switch : document.getValue "pause-on-active" ≠ .bool true
  idle : ∀ seconds, (document.getValue "pause-on-active").asUint = some seconds → seconds % 2 ^ 29 = 0
  webConfigUrl : stringOr document "web-config-url" [] = []
  cpuHighPause : document.getUint32 "cpu-high-pause" 95 = 95
  cpuLowResume : document.getUint32 "cpu-low-resume" 30 = 30
  cpuControlInterval : document.getUint32 "cpu-control-interval" 3 = 3
  cpuResumeDelay : document.getUint32 "cpu-resume-delay" 30 = 30
  processPauseNames : stringOr document "process-pause-names" [] = []
  windowPauseNames : stringOr document "window-pause-names" [] = []
  reportHost : stringOr document "report-host" [] = []
  reportPort : BitVec.ofNat 16 (document.getUint "report-port" 8181) = 8181
  reportPath : stringOr document "report-path" [] = []
  reportToken : stringOr document "report-token" [] = []
  donateAddress : stringOr document "donate-address" [] = []
  donateUseUserPool : document.getBool "donate-use-user-pool" true = true
  tls : parts.tls.Stable (parts.tls.read (document.getValue "tls") parts.tls.fresh)
  cpu : parts.cpu.Stable (parts.cpu.read (document.getValue "cpu") parts.cpu.fresh)
  rx : parts.rx.Stable (parts.rx.read (document.getValue "randomx") parts.rx.fresh)
  cl : (Pools.load ({} : Pools parts.bench) document).benchmark = none →
    parts.ocl.Stable (parts.ocl.read (document.getValue "opencl") parts.ocl.fresh)
  cuda : (Pools.load ({} : Pools parts.bench) document).benchmark = none →
    parts.cuda.Stable (parts.cuda.read (document.getValue "cuda") parts.cuda.fresh)
  pools : ∀ pool ∈ (Pools.load ({} : Pools parts.bench) document).data, pool.Lossless
  benchmark : ∀ bench, (Pools.load ({} : Pools parts.bench) document).benchmark = some bench →
    parts.bench.create (parts.bench.toJSON bench) (document.getBool "dmi" true) = some bench

/-- Milliseconds that are read as seconds stay only if there are none. -/
theorem thousandfold_iff (time : BitVec 32) : time * 1000 = time ↔ time.toNat = 0 := by
  rw [← BitVec.toNat_inj, BitVec.toNat_mul]
  have bound := time.isLt
  have factor : (1000 : BitVec 32).toNat = 1000 := rfl
  rw [factor]
  omega

theorem idleTime_iff (seconds : BitVec 32) : (seconds * 1000).toNat = 0 ↔ seconds.toNat % 2 ^ 29 = 0 := by
  rw [BitVec.toNat_mul]
  have factor : (1000 : BitVec 32).toNat = 1000 := rfl
  rw [factor]
  omega

theorem asBool_eq_some {value : Json} {enable : Bool} (read : value.asBool = some enable) : value = .bool enable := by
  cases value with
  | bool other => rw [Option.some.inj read]
  | _ => cases read

theorem idleOf_iff (value : Json) :
    idleOf value 0 * 1000 * 1000 = idleOf value 0 * 1000 ↔
      value ≠ .bool true ∧ ∀ seconds, value.asUint = some seconds → seconds % 2 ^ 29 = 0 := by
  rw [thousandfold_iff, idleTime_iff]
  cases switch : value.asBool with
  | some enable =>
    rw [asBool_eq_some switch]
    cases enable with
    | true => exact ⟨fun same => absurd same (by decide), fun other => absurd rfl other.1⟩
    | false => exact ⟨fun _ => ⟨by simp, fun seconds impossible => by cases impossible⟩, fun _ => by decide⟩
  | none =>
    have noSwitch : value ≠ .bool true := by
      rintro rfl
      cases switch
    cases number : value.asUint with
    | some seconds =>
      have small : seconds < 2 ^ 32 := by
        obtain ⟨read, integer, rfl⟩ := Option.map_eq_some_iff.mp number
        have := Pool.asInteger_range integer
        omega
      rw [idleOf_of_uint switch number, BitVec.toNat_ofNat, Nat.mod_eq_of_lt small]
      simp [noSwitch]
    | none =>
      have kept : idleOf value 0 = 0 := by
        unfold idleOf
        rw [switch, number]
      rw [kept]
      exact ⟨fun _ => ⟨noSwitch, fun seconds impossible => by cases impossible⟩, fun _ => by decide⟩

theorem pools_written_iff {pools : Pools parts.bench} {dmi : Bool}
    (alone : ∀ bench, pools.benchmark = some bench → pools = { benchmark := some bench }) :
    pools.written dmi = pools ↔ (∀ pool ∈ pools.data, pool.Lossless) ∧
      ∀ bench, pools.benchmark = some bench → parts.bench.create (parts.bench.toJSON bench) dmi = some bench := by
  cases chosen : pools.benchmark with
  | some bench =>
    have same := alone bench chosen
    rw [same, Pools.written]
    simp [Pools.ext_iff]
  | none =>
    have same : pools.written dmi = { pools with data := pools.data.map Pool.written } := by
      rw [Pools.written, chosen]
    rw [same, Pools.ext_iff, ← Pools.map_written_iff]
    simp [chosen]

theorem threads_written_iff {config : Config parts} (readable : config.Readable)
    (same : config.pools.written config.dmi = config.pools) :
    (config.written.cl = config.cl ↔ (config.pools.benchmark = none → parts.ocl.Stable config.cl)) ∧
      (config.written.cuda = config.cuda ↔ (config.pools.benchmark = none → parts.cuda.Stable config.cuda)) := by
  simp only [written, same]
  cases chosen : config.pools.benchmark with
  | some bench =>
    obtain ⟨-, cl, cuda⟩ := readable.benchmark bench chosen
    simp [cl, cuda]
  | none => simp [Codec.Stable]

theorem readOwn_threads {config : Config parts} (list : config.pools.benchmark = none) (reader : Json) :
    (config.readOwn reader).cl = parts.ocl.read (reader.getValue "opencl") config.cl ∧
      (config.readOwn reader).cuda = parts.cuda.read (reader.getValue "cuda") config.cuda := by
  simp [readOwn, list]

theorem written_effective_iff {document : Json} {config : Config parts} (accepted : read {} document = some config) :
    config.written.effective = config.effective ↔ Kept parts document := by
  have readable := readable_of_read accepted
  have threads := threads_written_iff readable
  have pools := @pools_written_iff _ _ config.dmi fun bench chosen => (readable.benchmark bench chosen).1
  have opened := fun chosen => @readOwn_threads parts (readBase {} document) chosen document
  obtain ⟨rfl, -⟩ := read_eq accepted
  rw [Config.ext_iff]
  constructor
  · rintro ⟨-, -, dryRun, -, -, -, -, -, -, tls, -, -, -, -, -, list, -, -, idle, cpu, rx, cl, cuda, -, -, webConfigUrl,
      cpuHighPause, cpuLowResume, cpuControlInterval, cpuResumeDelay, processPauseNames, windowPauseNames, reportHost,
      reportPort, reportPath, reportToken, donateAddress, donateUseUserPool⟩
    obtain ⟨switch, seconds⟩ := (idleOf_iff _).mp idle
    obtain ⟨lossless, benchmark⟩ := pools.mp list
    exact
      { dryRun := dryRun.symm
        switch
        idle := seconds
        webConfigUrl := webConfigUrl.symm
        cpuHighPause := cpuHighPause.symm
        cpuLowResume := cpuLowResume.symm
        cpuControlInterval := cpuControlInterval.symm
        cpuResumeDelay := cpuResumeDelay.symm
        processPauseNames := processPauseNames.symm
        windowPauseNames := windowPauseNames.symm
        reportHost := reportHost.symm
        reportPort := reportPort.symm
        reportPath := reportPath.symm
        reportToken := reportToken.symm
        donateAddress := donateAddress.symm
        donateUseUserPool := donateUseUserPool.symm
        tls
        cpu
        rx
        cl := fun chosen => (opened chosen).1 ▸ (threads list).1.mp cl chosen
        cuda := fun chosen => (opened chosen).2 ▸ (threads list).2.mp cuda chosen
        pools := lossless
        benchmark }
  · intro kept
    have list := pools.mpr ⟨kept.pools, kept.benchmark⟩
    have idle := (idleOf_iff _).mpr ⟨kept.switch, kept.idle⟩
    have cl := (threads list).1.mpr fun chosen => (opened chosen).1.symm ▸ kept.cl chosen
    have cuda := (threads list).2.mpr fun chosen => (opened chosen).2.symm ▸ kept.cuda chosen
    exact ⟨rfl, rfl, kept.dryRun.symm, rfl, rfl, rfl, rfl, rfl, rfl, kept.tls, rfl, rfl, rfl, rfl, rfl, list, rfl, rfl, idle,
      kept.cpu, kept.rx, cl, cuda, rfl, rfl, kept.webConfigUrl.symm, kept.cpuHighPause.symm, kept.cpuLowResume.symm,
      kept.cpuControlInterval.symm, kept.cpuResumeDelay.symm, kept.processPauseNames.symm, kept.windowPauseNames.symm,
      kept.reportHost.symm, kept.reportPort.symm, kept.reportPath.symm, kept.reportToken.symm, kept.donateAddress.symm,
      kept.donateUseUserPool.symm⟩

/-- A document that is accepted comes back from the one that is written for it, with the same settings,
exactly if nothing in it is dropped. -/
theorem read_getJSON_iff {document : Json} {config : Config parts} (accepted : read {} document = some config) :
    (∃ again, read {} config.getJSON = some again ∧ again.effective = config.effective) ↔ Kept parts document := by
  have readable := readable_of_read accepted
  rw [readable.read_getJSON, ← written_effective_iff accepted]
  constructor
  · rintro ⟨again, found, same⟩
    split at found
    · cases found
    · cases found
      exact same
  · intro same
    have pools := congrArg Config.pools same
    rw [effective_pools, effective_pools] at pools
    rw [pools, if_neg readable.active]
    exact ⟨_, rfl, same⟩

def verbatim : Codec Json where
  fresh := .null
  read := fun value old => if value.isNull then old else value
  toJSON := id

def verbatimParts : ConfigParts where
  bench :=
    { Bench := Empty
      create := fun _ _ => none
      toJSON := Empty.elim
      create_null := fun _ => rfl
      object := Empty.rec }
  Tls := Json
  tls := verbatim
  Rx := Json
  rx := verbatim
  Cpu := Json
  cpu := verbatim
  Ocl := Json
  ocl := verbatim
  Cuda := Json
  cuda := verbatim

def poolWith (key : String) (value : Json) : Json :=
  .obj [("pools", .arr [.obj [("url", .str (text "pool:3333"))]]), (key, value)]

def ofDocument (document : Json) : Config verbatimParts := (readBase {} document).readOwn document

theorem read_ofDocument {document : Json} (full : isEmpty document = false)
    (active : (readBase ({} : Config verbatimParts) document).pools.active ≠ 0) :
    read {} document = some (ofDocument document) := by
  apply if_neg
  rintro (empty | inactive)
  · rw [full] at empty
    cases empty
  · exact active inactive

theorem read_getJSON_idle :
    read {} (poolWith "pause-on-active" (.int 60)) = some (ofDocument (poolWith "pause-on-active" (.int 60))) ∧
      ((∃ again, read {} (ofDocument (poolWith "pause-on-active" (.int 60))).getJSON = some again ∧
          again.effective = (ofDocument (poolWith "pause-on-active" (.int 60))).effective) ↔
        Kept verbatimParts (poolWith "pause-on-active" (.int 60))) := by
  have accepted : read {} (poolWith "pause-on-active" (.int 60)) = some (ofDocument (poolWith "pause-on-active" (.int 60))) :=
    read_ofDocument rfl (by decide)
  exact ⟨accepted, read_getJSON_iff accepted⟩

/-- Sixty seconds come back as sixty thousand, and the limit for the load of the processor is lost. -/
theorem not_read_getJSON :
    (read {} (poolWith "pause-on-active" (.int 60)) = some (ofDocument (poolWith "pause-on-active" (.int 60))) ∧
      ¬ ∃ again, read {} (ofDocument (poolWith "pause-on-active" (.int 60))).getJSON = some again ∧
        again.effective = (ofDocument (poolWith "pause-on-active" (.int 60))).effective) ∧
    (read {} (poolWith "cpu-high-pause" (.int 80)) = some (ofDocument (poolWith "cpu-high-pause" (.int 80))) ∧
      ¬ ∃ again, read {} (ofDocument (poolWith "cpu-high-pause" (.int 80))).getJSON = some again ∧
        again.effective = (ofDocument (poolWith "cpu-high-pause" (.int 80))).effective) := by
  have lost : ∀ {document : Json}, read {} document = some (ofDocument document) → ¬ Kept verbatimParts document →
      ¬ ∃ again, read {} (ofDocument document).getJSON = some again ∧ again.effective = (ofDocument document).effective := by
    rintro document accepted dropped ⟨again, found, same⟩
    rw [(readable_of_read accepted).read_getJSON] at found
    split at found
    · cases found
    · cases found
      exact dropped ((written_effective_iff accepted).mp same)
  have idle : read {} (poolWith "pause-on-active" (.int 60)) = some (ofDocument (poolWith "pause-on-active" (.int 60))) :=
    read_ofDocument rfl (by decide)
  have load : read {} (poolWith "cpu-high-pause" (.int 80)) = some (ofDocument (poolWith "cpu-high-pause" (.int 80))) :=
    read_ofDocument rfl (by decide)
  refine ⟨⟨idle, lost idle fun kept => ?_⟩, load, lost load fun kept => ?_⟩
  · exact absurd (kept.idle 60 (by decide)) (by decide)
  · exact absurd kept.cpuHighPause (by decide)

end Config

end Xmrig
