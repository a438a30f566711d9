import HomelabApps.Library.JsonAccess
import HomelabApps.Library.KeyedMap
import HomelabApps.Library.Walk

namespace HomelabApps.HomelabDashboard

open HomelabApps.Library
open HomelabApps.Library.Utf16
open HomelabApps.Library.Json (isDigit)

structure DnsRecord where
  key : Option JsString
  value : JsString
  recordType : JsString
  enabled : Option Bool
  deriving DecidableEq

structure Service where
  name : JsString
  hostname : JsString
  url : JsString
  deriving DecidableEq

structure Cluster where
  index : Nat
  label : JsString
  ip : JsString
  color : JsString
  services : List Service
  deriving DecidableEq

/-- What the browser does; `parseInt` is the number a numeral stands for, rounded to a double. -/
structure Runtime where
  toLowerCase : JsString → JsString
  parseInt : JsString → Nat
  localeCompare : JsString → JsString → Ordering

abbrev Pattern := JsString → Option (List (Option JsString))

structure AppConfig where
  serverPattern : Pattern
  scheme : Option JsString
  exclude : Option (List JsString)
  paths : Option (List (JsString × JsString))

def DOT : UInt16 := 0x2E

def ACCENT_COLORS : List JsString :=
  [utf16 "#5b8dd9", utf16 "#c97e3a", utf16 "#7a55c4", utf16 "#3a8a5a", utf16 "#d95b8d", utf16 "#5bc4c9"]

def accentColor (index : Nat) : JsString :=
  let n : Int := ACCENT_COLORS.length
  (ACCENT_COLORS[((((index : Int) - 1).tmod n + n).tmod n).toNat]?).getD (utf16 "#5b8dd9")

structure Anchor where
  index : Nat
  ip : JsString
  hostname : JsString
  deriving DecidableEq

def DnsRecord.name (r : DnsRecord) : JsString := r.key.getD []

def DnsRecord.isEnabled (r : DnsRecord) : Bool := r.enabled ≠ some false

def DnsRecord.isA (r : DnsRecord) : Bool := r.recordType = utf16 "A"

def DnsRecord.isCname (r : DnsRecord) : Bool := r.recordType = utf16 "CNAME"

def firstLabel (hostname : JsString) : JsString := hostname.takeWhile (· ≠ DOT)

def normalizeSuffix (suffix : JsString) : JsString :=
  match suffix with
  | [] => []
  | u :: rest => if (utf16 "/?#").contains u then u :: rest else utf16 "/" ++ u :: rest

def resolvePath (hostname : JsString) (paths : KeyedMap JsString JsString) : JsString :=
  match (paths.get hostname).or (paths.get (firstLabel hostname)) with
  | some suffix => normalizeSuffix suffix
  | none => []

def service (hostname scheme : JsString) (paths : KeyedMap JsString JsString) : Service where
  name := firstLabel hostname
  hostname := hostname
  url := scheme ++ utf16 "://" ++ hostname ++ resolvePath hostname paths

section Parse

variable (runtime : Runtime)

def DnsRecord.hostname (r : DnsRecord) : JsString := runtime.toLowerCase r.name

def findAnchors (records : List DnsRecord) (pattern : Pattern) : List Anchor :=
  records.filterMap fun r =>
    if !r.isEnabled || !r.isA then none
    else
      let digits := (pattern r.name).bind fun groups =>
        groups.findSome? fun group => group.filter fun g => g ≠ [] && g.all isDigit
      digits.map fun digits => {
        index := runtime.parseInt digits
        ip := r.value
        hostname := r.hostname runtime }

structure Tables where
  ipToIndex : KeyedMap JsString Nat
  hostToIndex : KeyedMap JsString Nat
  byKey : KeyedMap JsString DnsRecord

def tables (records : List DnsRecord) (anchors : List Anchor) : Tables where
  ipToIndex := KeyedMap.setAll [] (anchors.map fun a => (a.ip, a.index))
  hostToIndex := KeyedMap.setAll [] (anchors.map fun a => (a.hostname, a.index))
  byKey := KeyedMap.setAll [] ((records.filter DnsRecord.isEnabled).map fun r => (r.hostname runtime, r))

def turn (tables : Tables) (current : JsString) : Turn JsString Nat :=
  match tables.hostToIndex.get current with
  | some index => .stop (some index)
  | none =>
    match tables.byKey.get current with
    | none => .stop none
    | some next =>
      if next.isA then .stop (tables.ipToIndex.get next.value)
      else if !next.isCname then .stop none
      else .go (runtime.toLowerCase next.value)

theorem mem_keys_of_turn (tables : Tables) (current next : JsString) (h : turn runtime tables current = .go next) :
    current ∈ tables.byKey.map (·.1) := by
  rw [turn] at h
  split at h
  · cases h
  · split at h
    · cases h
    · rename_i found hget
      exact List.mem_map_of_mem (KeyedMap.mem_of_get hget)

def chain (tables : Tables) : Links JsString Nat where
  turn := turn runtime tables
  names := tables.byKey.map (·.1)
  mem_names := mem_keys_of_turn runtime tables

def resolveCname (target : JsString) (tables : Tables) : Option Nat :=
  (chain runtime tables).walk [] (runtime.toLowerCase target)

def targetIndex (tables : Tables) (r : DnsRecord) : Option Nat :=
  if r.isA then tables.ipToIndex.get r.value
  else if r.isCname then resolveCname runtime r.value tables
  else none

structure Settings where
  pattern : Pattern
  scheme : JsString
  excluded : List JsString
  paths : KeyedMap JsString JsString

def assignService (settings : Settings) (tables : Tables) (clusterMap : KeyedMap Nat (List Service)) (r : DnsRecord) :
    KeyedMap Nat (List Service) :=
  if !r.isEnabled || (settings.pattern r.name).isSome then clusterMap
  else
    match targetIndex runtime tables r with
    | none => clusterMap
    | some index =>
      match clusterMap.get index with
      | none => clusterMap
      | some services =>
        if settings.excluded.contains (r.hostname runtime) then clusterMap
        else clusterMap.set index (services ++ [service (r.hostname runtime) settings.scheme settings.paths])

def emptyClusters (anchors : List Anchor) : KeyedMap Nat (List Service) :=
  KeyedMap.setAll [] ((anchors.mergeSort fun x y => x.index ≤ y.index).map fun a => (a.index, []))

def assignServices (settings : Settings) (records : List DnsRecord) (anchors : List Anchor) :
    KeyedMap Nat (List Service) :=
  records.foldl (assignService runtime settings (tables runtime records anchors)) (emptyClusters anchors)

def byName (a b : Service) : Bool := runtime.localeCompare a.name b.name ≠ .gt

def subnetOf (value : JsString) : JsString := (utf16 ".").intercalate ((value.splitOn DOT).take 3)

structure Groups where
  groups : KeyedMap JsString (Nat × List Service)
  idx : Nat

def Groups.add (settings : Settings) (groups : Groups) (r : DnsRecord) : Groups :=
  if !r.isA || !r.isEnabled || settings.excluded.contains (r.hostname runtime) then groups
  else
    let subnet := subnetOf r.value
    let found := service (r.hostname runtime) settings.scheme settings.paths
    match groups.groups.get subnet with
    | some (index, services) => { groups with groups := groups.groups.set subnet (index, services ++ [found]) }
    | none => { groups := groups.groups.set subnet (groups.idx, [found]), idx := groups.idx + 1 }

def fallbackBySubnet (settings : Settings) (records : List DnsRecord) : List Cluster :=
  (records.foldl (Groups.add runtime settings) { groups := [], idx := 1 }).groups.map fun (subnet, index, services) => {
    index := index
    label := subnet ++ utf16 ".x"
    ip := subnet ++ utf16 ".x"
    color := accentColor index
    services := services.mergeSort (byName runtime) }

def settingsOf (cfg : AppConfig) : Settings where
  pattern := cfg.serverPattern
  scheme := cfg.scheme.getD (utf16 "http")
  excluded := (cfg.exclude.getD []).map runtime.toLowerCase
  paths := KeyedMap.setAll [] ((cfg.paths.getD []).map fun (k, v) => (runtime.toLowerCase k, v))

/-- `none` where the index has no anchor, which reading it throws on. -/
def clusterOf (anchorByIndex : KeyedMap Nat Anchor) (entry : Nat × List Service) : Option Cluster :=
  (anchorByIndex.get entry.1).map fun anchor => {
    index := entry.1
    label := firstLabel anchor.hostname
    ip := anchor.ip
    color := accentColor entry.1
    services := entry.2.mergeSort (byName runtime) }

def parseDnsRecords (records : List DnsRecord) (cfg : AppConfig) : Option (List Cluster) :=
  let settings := settingsOf runtime cfg
  let anchors := findAnchors runtime records settings.pattern
  if anchors = [] then some (fallbackBySubnet runtime settings records)
  else
    let clusterMap := assignServices runtime settings records anchors
    let anchorByIndex := KeyedMap.setAll [] (anchors.map fun a => (a.index, a))
    let clusters := clusterMap.mapM (clusterOf runtime anchorByIndex)
    clusters.map (List.filter fun c => 0 < c.services.length)

end Parse

end HomelabApps.HomelabDashboard
