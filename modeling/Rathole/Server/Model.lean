import Rathole.MultiMap
import Rathole.Server.HotReload

/-!
# The server (`server.rs`)

One task accepts connections and applies hot reloads; every connection has a
task of its own, which runs one of three handshakes. The tasks share the
services and the control channels, each behind a lock. A task runs from one
await point to the next without interruption, so a step of the system is a
task getting past the await point at which it stands. A guard is alive
exactly as long as its owner stands at a point where the source holds it;
dropping a cancelled task drops its guards.

Beside the server's data the state records what happened: the events of every
connection, what a peer has been told of its session, and which handles were
dropped by whom. No step of the server reads these records.
-/

namespace Rathole.Server

abbrev ConnId := Nat

abbrev Nonce := Digest

/-- `CHAN_SIZE * 2`, the capacity of a handle's data channel. -/
def dataChannelCapacity : Nat := 2048 * 2

/-- What a connection's task has seen and done, in order. -/
inductive Event where
  | received (m : PacketMessage)
  | drew (nonce : Nonce)
  | sent (m : PacketMessage)
  /-- The visitor's challenge is written without a frame. -/
  | sentRaw (nonce : Nonce)
  | found (d : Digest) (service : ServerServiceConfig)
deriving DecidableEq

/-- A visitor that has passed every check. -/
structure Visitor where
  userName : String
  user : UserConfig
  auth : VisitorAuth
  sessionNonce : Nonce
deriving DecidableEq

inductive Outcome where
  | controlEstablished (d : Digest) (key : Nonce) (service : ServerServiceConfig)
  | visitorEstablished (v : Visitor)
  /-- The stream is in the data channel of the handle made for `owner`. -/
  | handedOver (key : Nonce) (owner : ConnId)
  | warned (message : String)
  | bailed (message : String)
  /-- An awaited operation failed, or the task was cancelled. -/
  | aborted
deriving DecidableEq

/-- The await points of a connection's task, with the variables alive there. -/
inductive Pc where
  | readHello
  -- do_control_channel_handshake
  | sendHello (d : Digest) (nonce : Nonce)
  | lookupService (d : Digest) (nonce : Nonce)
  | sendNoService (d : Digest)   -- holds a read guard of the services
  | readAuth (d : Digest) (nonce : Nonce) (service : ServerServiceConfig)
  | sendAuthFailed (service : ServerServiceConfig)
  | lockControl (d : Digest) (key : Nonce) (service : ServerServiceConfig)
  | sendAck (d : Digest) (key : Nonce) (service : ServerServiceConfig)
      -- holds the write guard of the control channels
  -- do_data_channel_handshake
  | lockData (key : Nonce)
  | handOver (key : Nonce) (owner : ConnId)
      -- holds a read guard of the control channels
  -- do_visitor_channel_handshake
  | sendChallenge (nonce : Nonce)
  | readVisitorAuth (nonce : Nonce)
  | sendRefusal (ack : VisitorAck) (message : String)
  | sendVisitorOk (v : Visitor)
  | sendSessionKey (v : Visitor)
  | lockVisitor (v : Visitor)   -- the handle is made
  | finished (outcome : Outcome)
deriving DecidableEq

def Pc.readsServices : Pc → Bool
  | .sendNoService _ => true
  | _ => false

def Pc.writesChannels : Pc → Bool
  | .sendAck .. => true
  | _ => false

def Pc.readsChannels : Pc → Bool
  | .handOver .. => true
  | _ => false

/-- What the peer knows of the session the server has offered it. -/
structure Session where
  key : Nonce
  /-- `ControlChannelHandle::new` has run: its task may send commands. -/
  made : Bool
  /-- The peer has read the confirmation of its session key. -/
  confirmed : Bool
  /-- The peer has read a `CreateDataChannel`. -/
  commanded : Bool
deriving DecidableEq

structure Conn where
  pc : Pc
  trace : List Event
  session : Option Session
deriving DecidableEq

/-- `ControlChannelHandle`, by the connection that was moved into it. -/
structure Handle where
  owner : ConnId
  service : ServerServiceConfig
  heartbeatInterval : UInt64
deriving DecidableEq

/-- The channel behind `data_ch_tx`: every stream sent into it, how many of
them were taken, and whether the receiver is gone. -/
structure DataChannel where
  sent : List ConnId
  taken : Nat
  closed : Bool
deriving DecidableEq

def DataChannel.new : DataChannel := ⟨[], 0, false⟩

/-- The await points of the accepting task. -/
inductive MainPc where
  | idle
  | addService (hash : Digest) (cfg : ServerServiceConfig)
  | addDropChannel (hash : Digest)   -- holds the write guard of the services
  | deleteScan (name : String)
  | deleteService (hash : Digest)
  | deleteDropChannel (hash : Digest)
  | clearChannels
  | stopped
deriving DecidableEq

/-- Who removed a handle from the control channels. -/
inductive Cause where
  | handshake (c : ConnId)
  | reload
  | clear
deriving DecidableEq

structure State where
  config : ServerConfig
  services : Services
  controlChannels : MultiMap Digest Nonce Handle
  conns : HashMap ConnId Conn
  main : MainPc
  /-- By the owner of the handle. -/
  dataChannels : HashMap ConnId DataChannel
  dropped : List (ConnId × Cause)

/-! ## Locks -/

def State.someConn (s : State) (p : Pc → Bool) : Bool :=
  s.conns.entries.any (fun e => p e.2.pc)

/-- `services.read()` gets past. -/
def State.servicesReadable (s : State) : Bool :=
  match s.main with
  | .addDropChannel _ => false
  | _ => true

/-- `services.write()` gets past; only the accepting task asks for it. -/
def State.servicesWritable (s : State) : Bool :=
  !s.someConn Pc.readsServices

/-- `control_channels.read()` gets past. -/
def State.channelsReadable (s : State) : Bool :=
  !s.someConn Pc.writesChannels

/-- `control_channels.write()` gets past. -/
def State.channelsWritable (s : State) : Bool :=
  !s.someConn Pc.writesChannels && !s.someConn Pc.readsChannels

/-! ## Handshakes -/

def Conn.goto (conn : Conn) (pc : Pc) (events : List Event) : Conn :=
  { conn with pc := pc, trace := conn.trace ++ events }

/-- What a connection's step does to the data it shares. -/
inductive Effect where
  | none
  /-- `remove1`. -/
  | drop (d : Digest)
  /-- `insert`. -/
  | install (d : Digest) (key : Nonce) (handle : Handle)
  /-- `remove1` and then `insert`. -/
  | replace (d : Digest) (key : Nonce) (handle : Handle)
  /-- `data_ch_tx.send`. -/
  | hand (owner : ConnId)
deriving DecidableEq

/-- `hex::encode`. -/
def hexEncode (d : Digest) : String :=
  let digit (n : Nat) : Char := Char.ofNat (if n < 10 then 48 + n else 87 + n)
  String.ofList (d.toList.flatMap
    (fun b => [digit (b.toNat / 16), digit (b.toNat % 16)]))

/-- The token and the nonce, concatenated. -/
def challenge (token : Option MaskedString) (nonce : Nonce) : Bytes :=
  utf8 (token.getD "") ++ nonce.toList

section

variable (digest : Bytes → Digest)

def visitorDigest (v : Visitor) : Digest :=
  digest (utf8 (v.userName ++ ":visitor:" ++ v.auth.bindAddr))

def visitorService (v : Visitor) : ServerServiceConfig where
  serviceType := v.auth.serviceType
  name := "visitor:" ++ v.userName
  bindAddr := v.auth.bindAddr
  user := some v.userName
  token := v.user.token
  nodelay := none

/-- The checks of a visitor, in their order. -/
def checkVisitor (config : ServerConfig) (nonce : Nonce) (auth : VisitorAuth)
    (sessionNonce : Nonce) : Except (VisitorAck × String) Visitor :=
  match config.users.entries.find? (fun u =>
      decide (digest (challenge u.2.token nonce) = auth.tokenDigest)) with
  | none => .error (.authFailed, "Visitor authentication failed")
  | some ⟨userName, user⟩ =>
      match SocketAddr.parse auth.bindAddr with
      | none => .error (.bindError, "Invalid bind_addr: " ++ auth.bindAddr)
      | some bindAddr =>
          if isPortAllowed user.allowedPorts bindAddr.port then
            .ok ⟨userName, user, auth, sessionNonce⟩
          else
            .error (.portDenied, "Port " ++ toString bindAddr.port.toNat ++
              " is not allowed for user " ++ userName)

/-- A message arrives at a read; `nonce` is what the generator gives if the
task asks for a nonce before its next await point. -/
def receive (config : ServerConfig) (conn : Conn) (m : PacketMessage)
    (nonce : Nonce) : Option Conn :=
  match conn.pc with
  | .readHello =>
      match readHello m with
      | .error e => some (conn.goto (.finished (.bailed e)) [.received m])
      | .ok (.controlChannelHello _ d) =>
          some (conn.goto (.sendHello d nonce) [.received m, .drew nonce])
      | .ok (.dataChannelHello _ key) =>
          some (conn.goto (.lockData key) [.received m])
      | .ok (.visitorHello _ _) =>
          some (conn.goto (.sendChallenge nonce) [.received m, .drew nonce])
  | .readAuth d nonce service =>
      match readAuth m with
      | .error e => some (conn.goto (.finished (.bailed e)) [.received m])
      | .ok h =>
          let key := digest (challenge service.token nonce)
          if key ≠ h then
            some (conn.goto (.sendAuthFailed service) [.received m])
          else
            some (conn.goto (.lockControl d key service) [.received m])
  | .readVisitorAuth challengeNonce =>
      match readVisitorAuth m with
      | .error e => some (conn.goto (.finished (.bailed e)) [.received m])
      | .ok auth =>
          match checkVisitor digest config challengeNonce auth nonce with
          | .error (ack, message) =>
              some (conn.goto (.sendRefusal ack message) [.received m])
          | .ok v =>
              some (conn.goto (.sendVisitorOk v) [.received m, .drew nonce])
  | _ => none

/-- A write is through, a lock is granted, or a channel has room. -/
def proceed (s : State) (c : ConnId) (conn : Conn) : Option (Conn × Effect) :=
  match conn.pc with
  | .sendHello d nonce =>
      some (conn.goto (.lookupService d nonce)
        [.sent (.hello (.controlChannelHello currentProtoVersion nonce))], .none)
  | .lookupService d nonce =>
      if s.servicesReadable then
        match s.services.lookup d with
        | some service =>
            some (conn.goto (.readAuth d nonce service) [.found d service], .none)
        | none => some (conn.goto (.sendNoService d) [], .none)
      else none
  | .sendNoService d =>
      some (conn.goto (.finished (.bailed ("No such a service " ++ hexEncode d)))
        [.sent (.ack .serviceNotExist)], .none)
  | .sendAuthFailed service =>
      some (conn.goto (.finished (.bailed
        ("Service " ++ service.name ++ " failed the authentication")))
        [.sent (.ack .authFailed)], .none)
  | .lockControl d key service =>
      if s.channelsWritable then
        some ({ conn.goto (.sendAck d key service) [] with
          session := some ⟨key, false, false, false⟩ }, .drop d)
      else none
  | .sendAck d key service =>
      some ({ conn.goto (.finished (.controlEstablished d key service))
          [.sent (.ack .ok)] with
        session := conn.session.map (fun x => { x with made := true }) },
        .install d key ⟨c, service, s.config.heartbeatInterval⟩)
  | .lockData key =>
      if s.channelsReadable then
        match s.controlChannels.get2 key with
        | some handle => some (conn.goto (.handOver key handle.owner) [], .none)
        | none =>
            some (conn.goto (.finished (.warned
              "Data channel has incorrect nonce")) [], .none)
      else none
  | .handOver key owner =>
      let ch := (s.dataChannels.lookup owner).getD DataChannel.new
      if ch.closed then
        some (conn.goto (.finished (.bailed
          "Data channel for a stale control channel")) [], .none)
      else if ch.sent.length - ch.taken < dataChannelCapacity then
        some (conn.goto (.finished (.handedOver key owner)) [], .hand owner)
      else none
  | .sendChallenge nonce =>
      some (conn.goto (.readVisitorAuth nonce) [.sentRaw nonce], .none)
  | .sendRefusal ack message =>
      some (conn.goto (.finished (.bailed message)) [.sent (.visitorAck ack)],
        .none)
  | .sendVisitorOk v =>
      some ({ conn.goto (.sendSessionKey v) [.sent (.visitorAck .ok)] with
        session := some ⟨v.sessionNonce, false, false, false⟩ }, .none)
  | .sendSessionKey v =>
      some ({ conn.goto (.lockVisitor v) [.sent (.auth v.sessionNonce)] with
        session := conn.session.map (fun x => { x with made := true }) }, .none)
  | .lockVisitor v =>
      if s.channelsWritable then
        some (conn.goto (.finished (.visitorEstablished v)) [],
          .replace (visitorDigest digest v) v.sessionNonce
            ⟨c, visitorService v, s.config.heartbeatInterval⟩)
      else none
  | .readHello => none
  | .readAuth .. => none
  | .readVisitorAuth _ => none
  | .finished _ => none

def abort (conn : Conn) : Option Conn :=
  match conn.pc with
  | .finished _ => none
  | _ => some (conn.goto (.finished .aborted) [])

/-- What can happen to one connection. -/
inductive Local where
  | receive (m : PacketMessage) (nonce : Nonce)
  | proceed
  | abort
  /-- The peer reads the confirmation, which it can from the moment it is
  being written on. -/
  | confirm
  /-- The handle's task has sent a `CreateDataChannel` and the peer reads it. -/
  | command
deriving DecidableEq

def localStep (s : State) (c : ConnId) (conn : Conn) :
    Local → Option (Conn × Effect)
  | .receive m nonce => (receive digest s.config conn m nonce).map (·, .none)
  | .proceed => proceed digest s c conn
  | .abort => (abort conn).map (·, .none)
  | .confirm => conn.session.map
      (fun x => ({ conn with session := some { x with confirmed := true } }, .none))
  | .command =>
      match conn.session with
      | some ⟨key, true, confirmed, _⟩ =>
          some ({ conn with session := some ⟨key, true, confirmed, true⟩ }, .none)
      | _ => none

end

/-! ## The shared data -/

def State.drop (s : State) (d : Digest) (cause : Cause) : State :=
  let (old, channels) := s.controlChannels.remove1 d
  { s with
    controlChannels := channels
    dropped := s.dropped ++ old.toList.map (fun h => (h.owner, cause)) }

/-- `let _ = h.insert(..)`: a handle that is not inserted is dropped. -/
def State.install (s : State) (d : Digest) (key : Nonce) (handle : Handle) :
    State :=
  match s.controlChannels.insert d key handle with
  | .ok channels => { s with controlChannels := channels }
  | .error _ => s

def State.dataChannel (s : State) (owner : ConnId) : DataChannel :=
  (s.dataChannels.lookup owner).getD DataChannel.new

def State.setDataChannel (s : State) (owner : ConnId) (ch : DataChannel) :
    State :=
  { s with dataChannels := AList.insert owner ch s.dataChannels }

def State.apply (s : State) (c : ConnId) : Effect → State
  | .none => s
  | .drop d => s.drop d (.handshake c)
  | .install d key handle => s.install d key handle
  | .replace d key handle => (s.drop d (.handshake c)).install d key handle
  | .hand owner =>
      let ch := s.dataChannel owner
      s.setDataChannel owner { ch with sent := ch.sent ++ [c] }

def State.setConn (s : State) (c : ConnId) (conn : Conn) : State :=
  { s with conns := AList.insert c conn s.conns }

/-! ## The system -/

inductive Action where
  | accept (c : ConnId)
  | conn (c : ConnId) (l : Local)
  /-- The pool of a handle takes a stream. -/
  | take (owner : ConnId)
  /-- The pool of a handle is gone. -/
  | close (owner : ConnId)
  | reload (change : ConfigChange)
  /-- The accepting task gets past its await point; `order` is the order in
  which it finds the services if it scans them. -/
  | main (order : List ((_ : Digest) × ServerServiceConfig))
  | shutdown

section

variable (digest : Bytes → Digest)

def startReload (s : State) (change : ConfigChange) : State :=
  match change with
  | .serverChange (.add cfg) =>
      { s with main :=
          .addService (serviceDigest digest cfg.user cfg.name) cfg }
  | .serverChange (.delete name) => { s with main := .deleteScan name }
  | _ => s   -- ignored since running as a server

def mainStep (s : State) (order : List ((_ : Digest) × ServerServiceConfig)) :
    Option State :=
  match s.main with
  | .addService hash cfg =>
      if s.servicesWritable then
        some { s with services := AList.insert hash cfg s.services
                      main := .addDropChannel hash }
      else none
  | .addDropChannel hash =>
      if s.channelsWritable then
        some { s.drop hash .reload with main := .idle }
      else none
  | .deleteScan name =>
      if s.servicesReadable ∧ order.Perm s.services.entries then
        match hashToRemove order name with
        | some hash => some { s with main := .deleteService hash }
        | none => some { s with main := .idle }
      else none
  | .deleteService hash =>
      if s.servicesWritable then
        some { s with services := AList.erase hash s.services
                      main := .deleteDropChannel hash }
      else none
  | .deleteDropChannel hash =>
      if s.channelsWritable then
        some { s.drop hash .reload with main := .idle }
      else none
  | .clearChannels =>
      if s.channelsWritable then
        some { s with
          controlChannels := s.controlChannels.clear
          main := .stopped
          dropped := s.dropped ++ s.controlChannels.store.entries.map
            (fun e => (e.2.2.2.owner, .clear)) }
      else none
  | .idle => none
  | .stopped => none

def step (s : State) : Action → Option State
  | .accept c =>
      if s.main = .idle ∧ s.conns.lookup c = none then
        some (s.setConn c ⟨.readHello, [], none⟩)
      else none
  | .conn c l =>
      match s.conns.lookup c with
      | none => none
      | some conn =>
          (localStep digest s c conn l).map
            (fun r => (s.apply c r.2).setConn c r.1)
  | .take owner =>
      let ch := s.dataChannel owner
      if ch.taken < ch.sent.length then
        some (s.setDataChannel owner { ch with taken := ch.taken + 1 })
      else none
  | .close owner =>
      some (s.setDataChannel owner { s.dataChannel owner with closed := true })
  | .reload change =>
      if s.main = .idle then some (startReload digest s change) else none
  | .main order => mainStep s order
  | .shutdown =>
      if s.main = .idle then some { s with main := .clearChannels } else none

/-- The server as `from_config_and_transport` makes it. -/
def init (config : ServerConfig) : State where
  config := config
  services := generateServiceHashmap digest config
  controlChannels := MultiMap.new
  conns := ∅
  main := .idle
  dataChannels := ∅
  dropped := []

end

end Rathole.Server
