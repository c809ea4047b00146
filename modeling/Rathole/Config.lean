import Rathole.Lib.HashMap

/-!
# Configuration (`config.rs`)

The configuration as the program holds it after parsing, its validation, and
the check of a port against `allowed_ports`. A map's order is its iteration
order; `==` on configurations is the derived one and does not see it.
-/

namespace Rathole

abbrev MaskedString := String

inductive TransportType where
  | tcp | udp
deriving DecidableEq, Repr

inductive ServiceType where
  | tcp | udp
deriving DecidableEq, Repr

inductive ProxyProtocol where
  | v1 | v2
deriving DecidableEq, Repr

/-- A parsed URL: only its scheme is ever looked at. -/
structure Url where
  scheme : String
  rest : String
deriving DecidableEq, Repr

structure ClientServiceConfig where
  serviceType : ServiceType
  name : String
  localAddr : String
  preferIpv6 : Bool
  user : Option String
  token : Option MaskedString
  nodelay : Option Bool
  retryInterval : Option UInt64
  remoteBindAddr : Option String
  proxyProtocol : Option ProxyProtocol
deriving DecidableEq, Repr

structure ServerServiceConfig where
  serviceType : ServiceType
  name : String
  bindAddr : String
  user : Option String
  token : Option MaskedString
  nodelay : Option Bool
deriving DecidableEq, Repr

structure NoiseConfig where
  pattern : String
  localPrivateKey : Option MaskedString
  remotePublicKey : Option String
  psk : Option MaskedString
deriving DecidableEq, Repr

structure UserConfig where
  token : Option MaskedString
  allowedPorts : String
deriving DecidableEq, Repr

structure UdpTransportConfig where
  psk : String
deriving DecidableEq, Repr

structure TcpConfig where
  nodelay : Bool
  keepaliveSecs : UInt64
  keepaliveInterval : UInt64
  proxy : Option Url
deriving DecidableEq, Repr

structure TransportConfig where
  transportType : TransportType
  tcp : TcpConfig
  noise : Option NoiseConfig
  udp : Option UdpTransportConfig
deriving DecidableEq, Repr

structure ClientConfig where
  remoteAddr : String
  user : Option String
  token : Option MaskedString
  preferIpv6 : Option Bool
  services : HashMap String ClientServiceConfig
  transport : TransportConfig
  heartbeatTimeout : UInt64
  retryInterval : UInt64

structure ServerConfig where
  bindAddr : String
  users : HashMap String UserConfig
  services : HashMap String ServerServiceConfig
  transport : TransportConfig
  heartbeatInterval : UInt64

structure Config where
  server : Option ServerConfig
  client : Option ClientConfig

/-! ## Allowed ports -/

/-- `char::is_whitespace`. -/
def isWhitespace (c : Char) : Bool :=
  let n := c.toNat
  (9 ≤ n && n ≤ 13) || n = 32 || n = 133 || n = 160 || n = 5760 ||
    (8192 ≤ n && n ≤ 8202) || n = 8232 || n = 8233 || n = 8239 || n = 8287 ||
    n = 12288

/-- `str::trim`. -/
def trim (s : List Char) : List Char :=
  ((s.dropWhile isWhitespace).reverse.dropWhile isWhitespace).reverse

/-- `str::split_once`. -/
def splitOnce (delimiter : Char) (s : List Char) :
    Option (List Char × List Char) :=
  match s.span (fun c => c ≠ delimiter) with
  | (_, []) => none
  | (before, _ :: after) => some (before, after)

/-- `str::parse::<u16>`: a plus sign is allowed, an overflow is an error. -/
def parseU16 (s : List Char) : Option UInt16 :=
  let digits := match s with
    | '+' :: rest => rest
    | _ => s
  if digits = [] || !digits.all Char.isDigit then none
  else
    let n := digits.foldl (fun n c => n * 10 + (c.toNat - '0'.toNat)) 0
    if n < 65536 then some n.toUInt16 else none

/-- One item of the list: a range, if it has a dash, or a port. -/
def partAllows (part : List Char) (port : UInt16) : Bool :=
  match splitOnce '-' (trim part) with
  | some (start, stop) =>
      match parseU16 (trim start), parseU16 (trim stop) with
      | some s, some e => s ≤ port && port ≤ e
      | _, _ => false
  | none => parseU16 (trim part) = some port

def isPortAllowed (allowedPorts : String) (port : UInt16) : Bool :=
  allowedPorts = "*" ||
    (allowedPorts.toList.splitOn ',').any (fun part => partAllows part port)

/-! ## Validation -/

def validateTransportConfig (config : TransportConfig) : Except String Unit :=
  let proxyOk : Except String Unit :=
    match config.tcp.proxy with
    | none => .ok ()
    | some u =>
        if u.scheme = "socks5" ∨ u.scheme = "http" then .ok ()
        else .error ("Unknown proxy scheme: " ++ u.scheme)
  match proxyOk with
  | .error e => .error e
  | .ok () =>
      match config.transportType with
      | .tcp => .ok ()
      | .udp =>
          match config.udp with
          | none => .error "Missing UDP configuration"
          | some udp =>
              if udp.psk = "" then .error "UDP PSK cannot be empty"
              else .ok ()

/-- The owner of a service: it must be a user, or default to one. -/
def serviceOwner (users : HashMap String UserConfig) (name : String)
    (user : Option String) : Except String String :=
  match user with
  | some userName =>
      if (users.lookup userName).isSome then .ok userName
      else .error
        ("User " ++ userName ++ " of service " ++ name ++ " is not defined")
  | none =>
      if (users.lookup "default").isSome then .ok "default"
      else .error ("Service " ++ name ++
        " has no owner and no `default` user is defined")

/-- The body of the loop over services in `validate_server_config`. -/
def validateServerService (users : HashMap String UserConfig) (name : String)
    (s : ServerServiceConfig) : Except String ServerServiceConfig :=
  match serviceOwner users name s.user with
  | .error e => .error e
  | .ok owner =>
      -- the token is taken from the owner if the service has none
      let token := s.token.or ((users.lookup owner).bind (fun u => u.token))
      match token with
      | none => .error ("The token of service " ++ name ++ " is not set")
      | some t =>
          .ok { s with name := name, user := some owner, token := some t }

def validateServerConfig (server : ServerConfig) : Except String ServerConfig :=
  match HashMap.tryUpdateAll (validateServerService server.users)
      server.services with
  | .error e => .error e
  | .ok services =>
      match validateTransportConfig server.transport with
      | .error e => .error e
      | .ok () => .ok { server with services := services }

/-- The body of the loop over services in `validate_client_config`. -/
def validateClientService (client : ClientConfig) (name : String)
    (s : ClientServiceConfig) : Except String ClientServiceConfig :=
  -- user and token are taken from the client if the service has none
  let user := (s.user.or client.user).getD "default"
  match s.token.or client.token with
  | none => .error ("The token of service " ++ name ++ " is not set")
  | some t =>
      .ok { s with
        name := name
        user := some user
        token := some t
        retryInterval := s.retryInterval.or (some client.retryInterval) }

def validateClientConfig (client : ClientConfig) : Except String ClientConfig :=
  match HashMap.tryUpdateAll (validateClientService client) client.services with
  | .error e => .error e
  | .ok services =>
      match validateTransportConfig client.transport with
      | .error e => .error e
      | .ok () => .ok { client with services := services }

/-- The validation of a block that may be missing. -/
def validateBlock {T : Type} (validate : T → Except String T) :
    Option T → Except String (Option T)
  | none => .ok none
  | some block =>
      match validate block with
      | .error e => .error e
      | .ok block => .ok (some block)

/-- `Config::from_str`, given what the TOML parser makes of the text. -/
def Config.fromStr (parsed : Except String Config) : Except String Config :=
  match parsed with
  | .error _ => .error "Failed to parse the config"
  | .ok config =>
      match validateBlock validateServerConfig config.server with
      | .error e => .error e
      | .ok server =>
          match validateBlock validateClientConfig config.client with
          | .error e => .error e
          | .ok client =>
              if server.isNone && client.isNone then
                .error "Neither of `[server]` or `[client]` is defined"
              else .ok { server := server, client := client }

/-- A configuration as the program runs it. -/
def ServerConfig.Accepted (server : ServerConfig) : Prop :=
  ∃ parsed, validateServerConfig parsed = .ok server

/-- In an accepted configuration a service has its key for a name, and an
owner. -/
theorem ServerConfig.Accepted.named {server : ServerConfig}
    (h : server.Accepted) {name : String} {s : ServerServiceConfig}
    (hs : server.services.lookup name = some s) :
    s.name = name ∧ ∃ owner, s.user = some owner := by
  obtain ⟨parsed, hok⟩ := h
  unfold validateServerConfig at hok
  split at hok
  · cases hok
  · rename_i services hservices
    split at hok
    · cases hok
    · cases hok
      obtain ⟨s₀, -, hval⟩ := HashMap.lookup_of_tryUpdateAll hservices hs
      unfold validateServerService at hval
      split at hval
      · cases hval
      · dsimp only at hval
        split at hval
        · cases hval
        · cases hval
          exact ⟨rfl, _, rfl⟩

theorem ServerConfig.Accepted.name_eq {server : ServerConfig}
    (h : server.Accepted) {name : String} {s : ServerServiceConfig}
    (hs : server.services.lookup name = some s) : s.name = name :=
  (h.named hs).1

/-- The client block of an accepted configuration has passed its check. -/
theorem Config.client_of_fromStr {parsed : Except String Config}
    {config : Config} (h : Config.fromStr parsed = .ok config)
    {client : ClientConfig} (hclient : config.client = some client) :
    ∃ block, validateClientConfig block = .ok client := by
  unfold Config.fromStr at h
  split at h
  · cases h
  · rename_i raw
    split at h
    · cases h
    · split at h
      · cases h
      · rename_i checked hchecked
        split at h
        · cases h
        · cases h
          subst hclient
          unfold validateBlock at hchecked
          split at hchecked
          · cases hchecked
          · rename_i block _
            split at hchecked
            · cases hchecked
            · rename_i hok
              cases hchecked
              exact ⟨block, hok⟩

/-- A service of a checked client block has its key for a name, and an
interval between retries. -/
theorem service_of_validateClientConfig {block client : ClientConfig}
    (h : validateClientConfig block = .ok client) {name : String}
    {s : ClientServiceConfig} (hs : client.services.lookup name = some s) :
    s.name = name ∧ s.retryInterval.isSome := by
  unfold validateClientConfig at h
  split at h
  · cases h
  · rename_i services hservices
    split at h
    · cases h
    · cases h
      obtain ⟨s₀, -, hval⟩ := HashMap.lookup_of_tryUpdateAll hservices hs
      unfold validateClientService at hval
      dsimp only at hval
      split at hval
      · cases hval
      · cases hval
        exact ⟨rfl, by simp⟩

end Rathole
