import Qtap.Bpf.Redirector

/-!
# The original destination of a redirected connection

A client connects, its connection is sent to the proxy and established there, and the
proxy asks for the destination that the client wanted, while other connections are made.
The answer is right unless an IPv4 connection was accepted on an IPv6 socket: then the key
for the question is not the key under which the connection is known.
-/

namespace Qtap.Bpf.Redirector

open Function Qtap.Core

/-! ## Clients -/

/-- Where a client connects to and where from.  A socket for IPv6 may speak IPv4 through
mapped addresses, and then both ends are mapped. -/
inductive Route where
  | ipv4 (destination source : Word)
  | mapped (destination source : Word)
  | native (destination source : Address) (hdestination : isIpv4Mapped destination = false)
      (hsource : isIpv4Mapped source = false)

/-- The destination port is in network byte order, the source port in host byte order. -/
structure Client where
  cookie : ℕ
  route : Route
  destinationPort : Port
  sourcePort : Port

namespace Client

def isNative (client : Client) : Bool :=
  match client.route with
  | .native _ _ _ _ => true
  | _ => false

def family (client : Client) : ℕ :=
  match client.route with
  | .ipv4 _ _ => afInet
  | _ => afInet6

/-- The destination as the programs store it. -/
def address (client : Client) : Address :=
  match client.route with
  | .ipv4 destination _ => .ofIpv4 destination
  | .mapped destination _ => .mapped destination
  | .native destination _ _ _ => destination

/-- The source as the programs store it. -/
def source (client : Client) : Address :=
  match client.route with
  | .ipv4 _ source | .mapped _ source => .ofIpv4 source
  | .native _ source _ _ => source

def sockAddr (client : Client) : SockAddr :=
  let port := client.destinationPort.setWidth 32
  match client.route with
  | .ipv4 destination _ => ⟨afInet, ipprotoTcp, destination, .zero, port⟩
  | .mapped destination _ => ⟨afInet6, ipprotoTcp, 0, .mapped destination, port⟩
  | .native destination _ _ _ => ⟨afInet6, ipprotoTcp, 0, destination, port⟩

/-- The program that runs at the connect call. -/
def connect (client : Client) (setting : Setting) (maps : Maps) : Maps × SockAddr :=
  match client.route with
  | .ipv4 _ _ => cgConnect4 setting client.cookie maps client.sockAddr
  | _ => cgConnect6 setting client.cookie maps client.sockAddr

/-- The checks pass and there is a proxy. -/
def redirected (client : Client) (setting : Setting) : Bool :=
  redirects setting client.family client.address client.destinationPort && setting.mgmtAddrs.isSome

def sockOps (client : Client) : SockOps :=
  let port := client.sourcePort.setWidth 32
  match client.route with
  | .ipv4 _ source => ⟨true, afInet, source, .zero, port⟩
  | .mapped _ source => ⟨true, afInet6, 0, .mapped source, port⟩
  | .native _ source _ _ => ⟨true, afInet6, 0, source, port⟩

/-- The socket that the proxy has accepted.  With a dual-stack listener the peer of an
IPv4 connection has a mapped address. -/
def accepted (client : Client) (dualStack : Bool) : Sk :=
  let port := htons client.sourcePort
  match client.route with
  | .ipv4 _ source | .mapped _ source =>
    if dualStack then ⟨afInet6, ipprotoTcp, source, .mapped source, port⟩
    else ⟨afInet, ipprotoTcp, source, .zero, port⟩
  | .native _ source _ _ => ⟨afInet6, ipprotoTcp, 0, source, port⟩

/-- The destination in the form that suits the accepted socket. -/
def originalDst (client : Client) (dualStack : Bool) : OptValue :=
  match client.route with
  | .ipv4 destination _ | .mapped destination _ =>
    if dualStack then .sockaddrIn6 (.mapped destination) client.destinationPort
    else .sockaddrIn destination client.destinationPort
  | .native destination _ _ _ => .sockaddrIn6 destination client.destinationPort

end Client

/-! ## Other connections -/

inductive Action where
  | connect4 (setting : Setting) (cookie : ℕ) (ctx : SockAddr)
  | connect6 (setting : Setting) (cookie : ℕ) (ctx : SockAddr)
  | sockOps (cookie : ℕ) (ctx : SockOps)
  /-- Both maps may lose entries. -/
  | evictPort (key : AddrPortKey)
  | evictSock (cookie : ℕ)

def perform (maps : Maps) : Action → Maps
  | .connect4 setting cookie ctx => (cgConnect4 setting cookie maps ctx).1
  | .connect6 setting cookie ctx => (cgConnect6 setting cookie maps ctx).1
  | .sockOps cookie ctx => cgSockOps cookie maps ctx
  | .evictPort key => { maps with mapPorts := Function.update maps.mapPorts key none }
  | .evictSock cookie => { maps with mapSocks := Function.update maps.mapSocks cookie none }

/-- The action is about another socket. -/
def Action.SparesSock (cookie : ℕ) : Action → Prop
  | .connect4 _ other _ => cookie ≠ other
  | .connect6 _ other _ => cookie ≠ other
  | .evictSock other => cookie ≠ other
  | _ => True

/-- The action is about another source. -/
def Action.SparesPort (key : AddrPortKey) : Action → Prop
  | .sockOps _ ctx => key ≠ sockOpsKey ctx
  | .evictPort other => key ≠ other
  | _ => True

theorem fst_of_checks {p q : Prop} [Decidable p] [Decidable q] (redirected : Bool)
    (maps stored : Maps) (ctx sent : SockAddr) :
    (if ¬ p ∨ ¬ q then (maps, ctx) else if !redirected then (maps, ctx) else (stored, sent)).1 =
      if (p ∧ q) ∧ redirected then stored else maps := by
  by_cases hctx : p ∧ q
  · rw [if_neg fun hor => not_and_or.2 hor hctx]
    cases redirected with
    | false => simp
    | true => simp [hctx]
  · rw [if_pos (not_and_or.1 hctx), if_neg fun hall => hctx hall.1]

/-- A connect program stores the destination or leaves the maps alone. -/
theorem cgConnect4_maps (setting : Setting) (cookie : ℕ) (maps : Maps) (ctx : SockAddr) :
    (cgConnect4 setting cookie maps ctx).1 =
      if (ctx.userFamily = afInet ∧ ctx.protocol = ipprotoTcp) ∧
          redirects setting ctx.userFamily (.ofIpv4 ctx.userIp4) (ctx.userPort.setWidth 16) then
        storeDestination maps cookie (.ofIpv4 ctx.userIp4) ctx.userPort
      else maps := by
  rw [cgConnect4]
  cases setting.mgmtAddrs <;> exact fst_of_checks _ _ _ _ _

theorem cgConnect6_maps (setting : Setting) (cookie : ℕ) (maps : Maps) (ctx : SockAddr) :
    (cgConnect6 setting cookie maps ctx).1 =
      if (ctx.protocol = ipprotoTcp ∧ ctx.userFamily = afInet6) ∧
          redirects setting ctx.userFamily ctx.userIp6 (ctx.userPort.setWidth 16) then
        storeDestination maps cookie ctx.userIp6 ctx.userPort
      else maps := by
  rw [cgConnect6]
  cases setting.mgmtAddrs <;> exact fst_of_checks _ _ _ _ _

theorem storeDestination_mapSocks_self (maps : Maps) (cookie : ℕ) (addr : Address) (port : Word) :
    (storeDestination maps cookie addr port).mapSocks cookie = some ⟨addr, port.setWidth 16⟩ :=
  update_self _ _ _

theorem storeDestination_mapSocks {cookie other : ℕ} (hne : cookie ≠ other) (maps : Maps)
    (addr : Address) (port : Word) :
    (storeDestination maps other addr port).mapSocks cookie = maps.mapSocks cookie :=
  update_of_ne hne _ _

theorem cgSockOps_mapSocks (cookie : ℕ) (maps : Maps) (ctx : SockOps) :
    (cgSockOps cookie maps ctx).mapSocks = maps.mapSocks := by
  rw [cgSockOps]
  split_ifs
  · rfl
  · split <;> rfl
  · rfl

theorem cgSockOps_mapPorts {key : AddrPortKey} (cookie : ℕ) (maps : Maps) {ctx : SockOps}
    (hne : key ≠ sockOpsKey ctx) :
    (cgSockOps cookie maps ctx).mapPorts key = maps.mapPorts key := by
  rw [cgSockOps]
  split_ifs
  · rfl
  · split
    · rfl
    · exact update_of_ne hne _ _
  · rfl

theorem perform_mapSocks {cookie : ℕ} {action : Action} (hspares : action.SparesSock cookie)
    (maps : Maps) : (perform maps action).mapSocks cookie = maps.mapSocks cookie := by
  cases action with
  | connect4 =>
    rw [perform, cgConnect4_maps]
    split_ifs
    · exact storeDestination_mapSocks hspares maps _ _
    · rfl
  | connect6 =>
    rw [perform, cgConnect6_maps]
    split_ifs
    · exact storeDestination_mapSocks hspares maps _ _
    · rfl
  | sockOps other ctx => exact congrFun (cgSockOps_mapSocks other maps ctx) cookie
  | evictPort => rfl
  | evictSock => exact update_of_ne hspares _ _

theorem perform_mapPorts {key : AddrPortKey} {action : Action} (hspares : action.SparesPort key)
    (maps : Maps) : (perform maps action).mapPorts key = maps.mapPorts key := by
  cases action with
  | connect4 =>
    rw [perform, cgConnect4_maps]
    split_ifs <;> rfl
  | connect6 =>
    rw [perform, cgConnect6_maps]
    split_ifs <;> rfl
  | sockOps cookie => exact cgSockOps_mapPorts cookie maps hspares
  | evictPort => exact update_of_ne hspares _ _
  | evictSock => rfl

/-- What each of the actions spares, all of them spare. -/
theorem foldl_perform {α : Type*} (field : Maps → α) {actions : List Action}
    (hspares : ∀ action ∈ actions, ∀ maps, field (perform maps action) = field maps)
    (maps : Maps) : field (actions.foldl perform maps) = field maps := by
  refine List.foldlRecOn (motive := fun after => field after = field maps) actions perform rfl ?_
  intro before hbefore action haction
  exact (hspares action haction before).trans hbefore

/-! ## One connection -/

namespace Client

theorem setWidth_setWidth_port (port : Port) : (port.setWidth 32).setWidth 16 = port := by
  simp

/-- The connect program stores the destination. -/
theorem connect_mapSocks {client : Client} {setting : Setting}
    (hredirected : client.redirected setting = true) (maps : Maps) :
    (client.connect setting maps).1.mapSocks client.cookie =
      some ⟨client.address, client.destinationPort⟩ := by
  have hport := setWidth_setWidth_port client.destinationPort
  have hredirects : redirects setting client.family client.address
      ((client.destinationPort.setWidth 32).setWidth 16) = true := by
    rw [hport]
    exact (Bool.and_eq_true_iff.1 hredirected).1
  obtain ⟨_, route, _, _⟩ := client
  cases route with
  | ipv4 destination =>
    rw [connect, cgConnect4_maps, if_pos ⟨⟨rfl, rfl⟩, hredirects⟩, storeDestination_mapSocks_self]
    exact congrArg (fun port => some (RdrSocket.mk (Address.ofIpv4 destination) port)) hport
  | mapped destination | native destination =>
    rw [connect, cgConnect6_maps, if_pos ⟨⟨rfl, rfl⟩, hredirects⟩, storeDestination_mapSocks_self]
    exact congrArg (fun port => some (RdrSocket.mk _ port)) hport

/-- The program for established connections stores the cookie for the source. -/
theorem cgSockOps_mapPorts_self (client : Client) {maps : Maps} {sock : RdrSocket}
    (hsock : maps.mapSocks client.cookie = some sock) :
    (cgSockOps client.cookie maps client.sockOps).mapPorts (sockOpsKey client.sockOps) =
      some client.cookie := by
  have hfamily : ¬ (client.sockOps.family ≠ afInet ∧ client.sockOps.family ≠ afInet6) := by
    obtain ⟨cookie, route, destinationPort, sourcePort⟩ := client
    cases route with
    | ipv4 => exact fun hneither => hneither.1 rfl
    | _ => exact fun hneither => hneither.2 rfl
  have hestablished : client.sockOps.established = true := by
    obtain ⟨_, route, _, _⟩ := client
    cases route <;> rfl
  rw [cgSockOps, if_neg hfamily, if_pos hestablished, hsock]
  exact update_self _ _ _

theorem isIpv4Mapped_mapped (ip : Word) : isIpv4Mapped (.mapped ip) = true := rfl

theorem isIpv4Mapped_ofIpv4 (ip : Word) : isIpv4Mapped (.ofIpv4 ip) = false := by
  simp [isIpv4Mapped, Address.ofIpv4]

theorem sockOpsKey_sockOps (client : Client) :
    sockOpsKey client.sockOps = ⟨client.source, htons client.sourcePort⟩ := by
  obtain ⟨_, route, _, sourcePort⟩ := client
  have hport := setWidth_setWidth_port sourcePort
  cases route with
  | ipv4 => rw [sockOpsKey, sockOps, hport, if_pos rfl, Client.source]
  | mapped destination source =>
    rw [sockOpsKey, sockOps, hport]
    rfl
  | native destination source hdestination hsource =>
    rw [sockOpsKey, sockOps, hport, if_neg (ne_true_of_eq_false hsource)]
    rfl

/-- The key is built from the peer; the address of an IPv6 socket is taken as it is. -/
theorem sockOptKey_accepted (client : Client) (dualStack : Bool) :
    sockOptKey (client.accepted dualStack) = ⟨match client.route with
      | .ipv4 _ source | .mapped _ source => if dualStack then .mapped source else .ofIpv4 source
      | .native _ source _ _ => source, htons client.sourcePort⟩ := by
  obtain ⟨_, route, _, _⟩ := client
  cases route <;> cases dualStack <;> rfl

theorem mapped_ne_ofIpv4 (ip other : Word) : Address.mapped ip ≠ .ofIpv4 other := by
  intro heq
  have hword : (0xffff0000 : Word) = 0 := congrArg Address.w2 heq
  exact absurd hword (by decide)

/-- The key of the question is that of the connection, unless an IPv4 connection was
accepted on an IPv6 socket. -/
theorem sockOptKey_accepted_iff (client : Client) (dualStack : Bool) :
    sockOptKey (client.accepted dualStack) = sockOpsKey client.sockOps ↔
      dualStack = false ∨ client.isNative = true := by
  rw [sockOptKey_accepted, sockOpsKey_sockOps, AddrPortKey.mk.injEq, and_iff_left rfl]
  obtain ⟨_, route, _, _⟩ := client
  cases route with
  | ipv4 destination source | mapped destination source =>
    cases dualStack with
    | false => exact iff_of_true rfl (.inl rfl)
    | true => exact iff_of_false (mapped_ne_ofIpv4 source source) (by simp [isNative])
  | native => exact iff_of_true rfl (.inr rfl)

theorem accepted_family (client : Client) (dualStack : Bool) :
    (client.accepted dualStack).family = afInet ∨
      (client.accepted dualStack).family = afInet6 := by
  obtain ⟨_, route, _, _⟩ := client
  cases route with
  | native => exact .inr rfl
  | _ =>
    cases dualStack with
    | false => exact .inl rfl
    | true => exact .inr rfl

theorem accepted_protocol (client : Client) (dualStack : Bool) :
    (client.accepted dualStack).protocol = ipprotoTcp := by
  obtain ⟨_, route, _, _⟩ := client
  cases route <;> cases dualStack <;> rfl

/-- The size of the answer for an accepted socket. -/
def sockaddrSize (sk : Sk) : ℕ := if sk.family = afInet then 16 else 28

/-- With the entries of the connection in the maps, the answer is the destination. -/
theorem cgSockOpt_originalDst {client : Client} {dualStack : Bool} {maps : Maps} {room : ℕ}
    (processes : Processes) (hright : dualStack = false ∨ client.isNative = true)
    (hroom : sockaddrSize (client.accepted dualStack) ≤ room)
    (hport : maps.mapPorts (sockOptKey (client.accepted dualStack)) = some client.cookie)
    (hsock : maps.mapSocks client.cookie = some ⟨client.address, client.destinationPort⟩) :
    cgSockOpt processes maps .originalDst (client.accepted dualStack) room =
      some (client.originalDst dualStack) := by
  have hfamily : ¬ ((client.accepted dualStack).family ≠ afInet ∧
      (client.accepted dualStack).family ≠ afInet6) := by
    rcases client.accepted_family dualStack with hinet | hinet6
    · exact fun hneither => hneither.1 hinet
    · exact fun hneither => hneither.2 hinet6
  have hprotocol : ¬ (client.accepted dualStack).protocol ≠ ipprotoTcp :=
    not_not.2 (client.accepted_protocol dualStack)
  rw [cgSockOpt, if_neg (by decide), if_neg hfamily, if_neg hprotocol]
  simp only [hport, hsock, Option.bind_some]
  obtain ⟨_, route, _, _⟩ := client
  cases route with
  | ipv4 destination =>
    obtain rfl : dualStack = false := hright.resolve_right Bool.false_ne_true
    have hplain := ne_true_of_eq_false (isIpv4Mapped_ofIpv4 destination)
    exact (if_pos rfl).trans ((if_neg (not_lt.2 hroom)).trans (if_neg hplain))
  | mapped destination =>
    obtain rfl : dualStack = false := hright.resolve_right Bool.false_ne_true
    have hmapped := isIpv4Mapped_mapped destination
    exact (if_pos rfl).trans ((if_neg (not_lt.2 hroom)).trans (if_pos hmapped))
  | native =>
    have hinet6 : afInet6 ≠ afInet := by decide
    exact (if_neg hinet6).trans (if_neg (not_lt.2 hroom))

end Client

/-! ## The round trip -/

/-- The question finds the key of the connection and is answered with its destination. -/
def RoundTrips (client : Client) (processes : Processes) (maps : Maps) (dualStack : Bool)
    (room : ℕ) : Prop :=
  sockOptKey (client.accepted dualStack) = sockOpsKey client.sockOps ∧
    cgSockOpt processes maps .originalDst (client.accepted dualStack) room =
      some (client.originalDst dualStack)

/-- The maps after the client has connected and its connection was established, with
actions about other connections in between and afterwards. -/
def afterwards (client : Client) (setting : Setting) (maps : Maps) (between after : List Action) :
    Maps :=
  after.foldl perform (cgSockOps client.cookie
    (between.foldl perform (client.connect setting maps).1) client.sockOps)

/-- A redirected connection round-trips exactly when it was accepted on an IPv4 socket or
is a native IPv6 connection. -/
theorem original_destination_roundTrips_iff {client : Client} {setting : Setting}
    {between after : List Action} {dualStack : Bool} {room : ℕ} (processes : Processes)
    (maps : Maps) (hredirected : client.redirected setting = true)
    (hbetween : ∀ action ∈ between, action.SparesSock client.cookie)
    (hafter : ∀ action ∈ after, action.SparesSock client.cookie ∧
      action.SparesPort (sockOpsKey client.sockOps))
    (hroom : Client.sockaddrSize (client.accepted dualStack) ≤ room) :
    RoundTrips client processes (afterwards client setting maps between after) dualStack room ↔
      dualStack = false ∨ client.isNative = true := by
  rw [RoundTrips, client.sockOptKey_accepted_iff, and_iff_left_iff_imp]
  intro hright
  have hkey := (client.sockOptKey_accepted_iff dualStack).2 hright
  have hstored : (between.foldl perform (client.connect setting maps).1).mapSocks client.cookie =
      some ⟨client.address, client.destinationPort⟩ := by
    rw [foldl_perform (·.mapSocks client.cookie) fun action haction =>
      perform_mapSocks (hbetween action haction), Client.connect_mapSocks hredirected]
  apply Client.cgSockOpt_originalDst processes hright hroom
  · rw [hkey, afterwards, foldl_perform (·.mapPorts (sockOpsKey client.sockOps))
      fun action haction => perform_mapPorts (hafter action haction).2]
    exact client.cgSockOps_mapPorts_self hstored
  · rw [afterwards, foldl_perform (·.mapSocks client.cookie) fun action haction =>
      perform_mapSocks (hafter action haction).1, cgSockOps_mapSocks, hstored]

/-- A process that is forwarded, and a proxy. -/
def sampleSetting : Setting where
  env :=
    { (default : Env) with
      processMeta := fun _ => some
        { strategy := .forward, skipData := false, skipDns := false, skipTls := false,
          skipHttp := false }
      direction := .all }
  pid := 100
  mgmtAddrs := some ⟨0x0100007f, ⟨0, 0, 0, 0x01000000⟩, 0x901f⟩

/-- A connection from 10.0.0.5:40000 to 9.9.9.9:443. -/
def sampleClient : Client where
  cookie := 7
  route := .ipv4 0x09090909 0x0500000a
  destinationPort := 0xbb01
  sourcePort := 40000

def noProcesses : Processes where
  addrPortToPidMap := fun _ => none
  tlsOk := fun _ => none

def noMaps : Maps where
  mapPorts := fun _ => none
  mapSocks := fun _ => none

theorem original_destination_roundTrips_sample :
    RoundTrips sampleClient noProcesses (afterwards sampleClient sampleSetting noMaps [] []) false
      16 :=
  (original_destination_roundTrips_iff noProcesses noMaps (by decide) (List.forall_mem_nil _)
    (List.forall_mem_nil _) (by decide)).2 (.inl rfl)

/-- On a dual-stack listener the connection is not found. -/
theorem original_destination_lost_dualStack :
    sampleClient.redirected sampleSetting = true ∧
    cgSockOpt noProcesses (afterwards sampleClient sampleSetting noMaps [] []) .originalDst
      (sampleClient.accepted true) 28 = none ∧
    ¬ RoundTrips sampleClient noProcesses (afterwards sampleClient sampleSetting noMaps [] []) true
      28 := by
  have hkey : sockOptKey (sampleClient.accepted true) ≠ sockOpsKey sampleClient.sockOps := by
    decide
  exact ⟨by decide, by decide, fun hroundTrips => hkey hroundTrips.1⟩

end Qtap.Bpf.Redirector
