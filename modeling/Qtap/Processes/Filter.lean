import Mathlib.Tactic

/-!
# Process filters

A configuration lists filters, each with the mask of what is to be skipped for the processes it
matches.  `updateFilters` loads the custom filters that pass their check and then the predefined
ones of the groups; `applyFilters` gives a process the mask of the first that matches it.

Regular expressions and the folding of case are those of the Go library, whatever they are.
-/

namespace Qtap.Processes

/-- `config.MatchStrategy`; the empty string is `unspecified`. -/
inductive MatchStrategy where
  | unspecified
  | exactMatch
  | prefixMatch
  | suffixMatch
  | containsMatch
  | regexMatch
  | other (name : String)
  deriving DecidableEq, Repr

namespace MatchStrategy

def text : MatchStrategy → String
  | unspecified => ""
  | exactMatch => "exact"
  | prefixMatch => "prefix"
  | suffixMatch => "suffix"
  | containsMatch => "contains"
  | regexMatch => "regex"
  | other name => name

end MatchStrategy

/-- `config.FilterLevel`. -/
inductive FilterLevel where
  | data
  | dns
  | tls
  | http
  | other (name : String)
  deriving DecidableEq, Repr

/-- `config.TapFilter`. -/
structure TapFilter where
  exe : String
  strategy : MatchStrategy
  only : List FilterLevel
  deriving DecidableEq, Repr

/-- `config.TapFilters`. -/
structure TapFilters where
  groups : List String
  custom : List TapFilter
  deriving DecidableEq, Repr

/-- `strings.ToLower`, `regexp.Compile` with the `MatchString` of its result, and `os.Getpid`. -/
structure Host where
  toLower : String → String
  compile : String → Except String (String → Bool)
  getpid : ℕ

def skipDataFlag : UInt8 := 1
def skipDNSFlag : UInt8 := 2
def skipTLSFlag : UInt8 := 4
def skipHTTPFlag : UInt8 := 8
def skipAllFlag : UInt8 := skipDataFlag ||| skipDNSFlag ||| skipTLSFlag ||| skipHTTPFlag

namespace TapFilter

def validateRegex (host : Host) (filter : TapFilter) : Except String Unit :=
  if filter.strategy = .regexMatch then
    match host.compile filter.exe with
    | .ok _ => .ok ()
    | .error err => .error ("invalid regex for exe: " ++ err)
  else .ok ()

def validateOnly : List FilterLevel → Except String Unit
  | [] => .ok ()
  | .other name :: _ => .error ("invalid filter: " ++ name)
  | _ :: levels => validateOnly levels

def validate (host : Host) (filter : TapFilter) : Except String Unit :=
  if filter.exe = "" then .error "exe must not be empty"
  else do
    filter.validateRegex host
    validateOnly filter.only

def pack (filter : TapFilter) : UInt8 :=
  if filter.only = [] then skipAllFlag
  else
    (if .data ∈ filter.only then skipDataFlag else 0) |||
      (if .dns ∈ filter.only then skipDNSFlag else 0) |||
      (if .tls ∈ filter.only then skipTLSFlag else 0) |||
      if .http ∈ filter.only then skipHTTPFlag else 0

end TapFilter

/-- `ExeFilter`, `ExeRegexFilter` with its compiled pattern, and `PIDFilter`. -/
inductive Filter where
  | exeFilter (pattern : String) (strategy : MatchStrategy) (bitmask : UInt8)
  | exeRegexFilter (matchString : String → Bool) (bitmask : UInt8)
  | pidFilter (pid : ℕ) (bitmask : UInt8)

/-- A process as far as filters go: whether it has a notifier, and the filter that the eventer
was given for it last. -/
structure Process where
  pid : ℕ
  exe : String
  filter : UInt8
  notifier : Bool
  notified : Option UInt8
  deriving DecidableEq, Repr

namespace Filter

def bitmask : Filter → UInt8
  | exeFilter _ _ bitmask => bitmask
  | exeRegexFilter _ bitmask => bitmask
  | pidFilter _ bitmask => bitmask

def evaluate (host : Host) (filter : Filter) (p : Process) : Except String Bool :=
  match filter with
  | exeFilter pattern strategy _ =>
    if p.exe = "" ∨ pattern = "" then .ok false
    else
      let input := (host.toLower p.exe).toList
      let exe := (host.toLower pattern).toList
      match strategy with
      | .exactMatch => .ok (exe = input)
      | .prefixMatch => .ok (exe <+: input)
      | .suffixMatch | .unspecified => .ok (exe <:+ input)
      | .containsMatch => .ok (exe <:+: input)
      | .regexMatch | .other _ => .error ("invalid strategy: " ++ strategy.text)
  | exeRegexFilter matchString _ => .ok (matchString p.exe)
  | pidFilter pid _ => .ok (pid = p.pid)

/-- A filter whose evaluation fails does not match. -/
def matches? (host : Host) (p : Process) (filter : Filter) : Bool :=
  match filter.evaluate host p with
  | .ok found => found
  | .error _ => false

def fromConfigFilter (host : Host) (filter : TapFilter) : Except String Filter :=
  if filter.strategy = .regexMatch then
    match host.compile filter.exe with
    | .ok matchString => .ok (exeRegexFilter matchString filter.pack)
    | .error err => .error ("invalid regex: " ++ err)
  else .ok (exeFilter filter.exe filter.strategy filter.pack)

def getPredefinedFilters (host : Host) : String → List Filter
  | "container-runtimes" =>
    [exeFilter "/usr/bin/containerd" .exactMatch skipAllFlag,
      exeFilter "/usr/bin/dockerd" .exactMatch skipAllFlag,
      exeFilter "/usr/bin/runc" .exactMatch skipAllFlag]
  | "eks" =>
    [exeFilter "/app/aws-k8s-agent" .exactMatch skipAllFlag,
      exeFilter "/usr/bin/amazon-ssm-agent" .exactMatch skipAllFlag,
      exeFilter "/usr/bin/ssm-agent-worker" .exactMatch skipAllFlag,
      exeFilter "/usr/bin/ssm-document-worker" .exactMatch skipAllFlag]
  | "gke" =>
    [exeFilter "/home/kubernetes/bin/gcfsd" .exactMatch skipAllFlag,
      exeFilter "/event-exporter" .exactMatch skipAllFlag,
      exeFilter "/fluent-bit-gke-exporter" .exactMatch skipAllFlag,
      exeFilter "/home/kubernetes/bin/node-problem-detector" .exactMatch skipAllFlag]
  | "kubernetes" =>
    [exeFilter "/kubelet" .suffixMatch skipAllFlag,
      exeFilter "/kube-proxy" .suffixMatch skipAllFlag,
      exeFilter "/proxy-agent" .suffixMatch skipAllFlag,
      exeFilter "/cluster-proportional-autoscaler" .suffixMatch skipAllFlag,
      exeFilter "/csi-node-driver-registrar" .suffixMatch skipAllFlag]
  | "qpoint" =>
    [pidFilter host.getpid skipAllFlag, exeFilter "/qtap" .suffixMatch skipAllFlag]
  | _ => []

/-- A custom filter that is invalid is not loaded. -/
def fromValid (host : Host) (filter : TapFilter) : Option Filter :=
  match filter.validate host with
  | .ok _ => (fromConfigFilter host filter).toOption
  | .error _ => none

/-- The filters that `updateFilters` sets. -/
def load (host : Host) (cfg : TapFilters) : List Filter :=
  cfg.custom.filterMap (fromValid host) ++ cfg.groups.flatMap (getPredefinedFilters host)

end Filter

def applyFilters (host : Host) : List Filter → Process → UInt8
  | [], _ => 0
  | filter :: filters, p =>
    match filter.evaluate host p with
    | .ok true => filter.bitmask
    | .ok false | .error _ => applyFilters host filters p

/-! ## What is applied -/

variable {host : Host}

theorem applyFilters_eq_find? {filters : List Filter} {p : Process} :
    applyFilters host filters p =
      ((filters.find? (Filter.matches? host p)).map Filter.bitmask).getD 0 := by
  induction filters with
  | nil => rfl
  | cons filter filters ih =>
    rw [applyFilters, List.find?_cons, Filter.matches?]
    cases filter.evaluate host p with
    | error => exact ih
    | ok found =>
      cases found with
      | false => exact ih
      | true => rfl

namespace TapFilter

theorem other_not_mem {levels : List FilterLevel} (hvalid : validateOnly levels = .ok ()) :
    ∀ name, .other name ∉ levels := by
  induction levels with
  | nil => exact fun name => List.not_mem_nil
  | cons level levels ih =>
    intro name hmem
    cases level with
    | other => cases hvalid
    | data | dns | tls | http =>
      exact ih hvalid name ((List.mem_cons.1 hmem).resolve_left nofun)

/-- Every filter that is loaded skips something. -/
theorem pack_ne_zero {filter : TapFilter} (hvalid : filter.validate host = .ok ()) :
    filter.pack ≠ 0 := by
  have honly : validateOnly filter.only = .ok () := by
    rw [validate] at hvalid
    split at hvalid
    · cases hvalid
    · cases hregex : filter.validateRegex host with
      | error => rw [hregex] at hvalid; cases hvalid
      | ok => rwa [hregex] at hvalid
  rw [pack]
  split
  · decide
  next hne =>
    obtain ⟨level, hlevel⟩ := List.exists_mem_of_ne_nil _ hne
    cases level with
    | other name => exact absurd hlevel (other_not_mem honly name)
    | data | dns | tls | http =>
      split_ifs <;> decide

end TapFilter

namespace Filter

theorem bitmask_ne_zero_of_fromValid {tap : TapFilter} {filter : Filter}
    (hfilter : fromValid host tap = some filter) : filter.bitmask ≠ 0 := by
  rw [fromValid] at hfilter
  split at hfilter
  next hvalid =>
    have hmask := TapFilter.pack_ne_zero hvalid
    rw [fromConfigFilter] at hfilter
    split at hfilter
    · cases hcompile : host.compile tap.exe with
      | error => rw [hcompile] at hfilter; cases hfilter
      | ok =>
        rw [hcompile] at hfilter
        cases hfilter
        exact hmask
    · cases hfilter
      exact hmask
  · cases hfilter

theorem bitmask_ne_zero_of_predefined {group : String} :
    ∀ filter ∈ getPredefinedFilters host group, filter.bitmask ≠ 0 := by
  unfold getPredefinedFilters
  split <;> simp [bitmask, skipAllFlag, skipDataFlag, skipDNSFlag, skipTLSFlag, skipHTTPFlag]

theorem bitmask_ne_zero {tap : TapFilters} : ∀ filter ∈ load host tap, filter.bitmask ≠ 0 := by
  intro filter hfilter
  rcases List.mem_append.1 hfilter with hcustom | hgroup
  · obtain ⟨_, _, hload⟩ := List.mem_filterMap.1 hcustom
    exact bitmask_ne_zero_of_fromValid hload
  · obtain ⟨_, _, hmem⟩ := List.mem_flatMap.1 hgroup
    exact bitmask_ne_zero_of_predefined filter hmem

end Filter

/-- Of the filters of a configuration, some match exactly if the mask is not empty. -/
theorem applyFilters_load_ne_zero {tap : TapFilters} {p : Process} :
    applyFilters host (Filter.load host tap) p ≠ 0 ↔
      ∃ filter ∈ Filter.load host tap, filter.matches? host p = true := by
  rw [applyFilters_eq_find?]
  cases hfind : (Filter.load host tap).find? (Filter.matches? host p) with
  | none =>
    rw [List.find?_eq_none] at hfind
    exact iff_of_false (absurd rfl) fun ⟨filter, hmem, hmatches⟩ => hfind filter hmem hmatches
  | some filter =>
    have hmem := List.mem_of_find?_eq_some hfind
    exact iff_of_true (Filter.bitmask_ne_zero filter hmem) ⟨filter, hmem, List.find?_some hfind⟩

end Qtap.Processes
