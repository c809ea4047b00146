import Rathole.Server.Model

/-!
# What a handshake has done so far

A connection's await point says which messages it has exchanged: `Conn.Ok`
reads the point back into the events. Of a connection's steps only four touch
the shared data, and `Shape` says which and from where.
-/

namespace Rathole.Server

/-! ## Evidence -/

/-- Everything a control channel's handshake does up to a correct `Auth`. -/
def controlEvents (d : Digest) (nonce : Nonce) (service : ServerServiceConfig)
    (key : Nonce) : List Event :=
  [.received (.hello (.controlChannelHello currentProtoVersion d)),
    .drew nonce,
    .sent (.hello (.controlChannelHello currentProtoVersion nonce)),
    .found d service,
    .received (.auth key)]

/-- Everything a visitor's handshake does up to a correct `VisitorAuth`. -/
def visitorEvents (w : Digest) (nonce : Nonce) (auth : VisitorAuth)
    (sessionNonce : Nonce) : List Event :=
  [.received (.hello (.visitorHello currentProtoVersion w)),
    .drew nonce,
    .sentRaw nonce,
    .received (.visitorAuth auth),
    .drew sessionNonce]

/-- Everything a data channel's handshake does before it asks for the lock. -/
def dataEvents (key : Nonce) : List Event :=
  [.received (.hello (.dataChannelHello currentProtoVersion key))]

section

variable (digest : Bytes → Digest)

/-- The peer has answered the nonce with the session key. -/
def Authenticated (trace : List Event) (d : Digest) (key : Nonce)
    (service : ServerServiceConfig) : Prop :=
  ∃ nonce, trace = controlEvents d nonce service key ∧
    key = digest (challenge service.token nonce)

/-- The peer has proved to be a user who may bind the port. -/
def Admitted (config : ServerConfig) (trace : List Event) (v : Visitor) : Prop :=
  ∃ w nonce, trace = visitorEvents w nonce v.auth v.sessionNonce ∧
    config.users.lookup v.userName = some v.user ∧
    v.auth.tokenDigest = digest (challenge v.user.token nonce) ∧
    ∃ addr, SocketAddr.parse v.auth.bindAddr = some addr ∧
      isPortAllowed v.user.allowedPorts addr.port = true

def Conn.Ok (config : ServerConfig) (conn : Conn) : Prop :=
  match conn.pc with
  | .readHello => conn.trace = []
  | .sendHello d nonce => conn.trace =
      [.received (.hello (.controlChannelHello currentProtoVersion d)),
        .drew nonce]
  | .lookupService d nonce => conn.trace =
      [.received (.hello (.controlChannelHello currentProtoVersion d)),
        .drew nonce,
        .sent (.hello (.controlChannelHello currentProtoVersion nonce))]
  | .readAuth d nonce service => conn.trace =
      [.received (.hello (.controlChannelHello currentProtoVersion d)),
        .drew nonce,
        .sent (.hello (.controlChannelHello currentProtoVersion nonce)),
        .found d service]
  | .lockControl d key service => Authenticated digest conn.trace d key service
  | .sendAck d key service => Authenticated digest conn.trace d key service
  | .lockData key => conn.trace = dataEvents key
  | .handOver key _ => conn.trace = dataEvents key
  | .sendChallenge nonce => ∃ w, conn.trace =
      [.received (.hello (.visitorHello currentProtoVersion w)), .drew nonce]
  | .readVisitorAuth nonce => ∃ w, conn.trace =
      [.received (.hello (.visitorHello currentProtoVersion w)), .drew nonce,
        .sentRaw nonce]
  | .sendVisitorOk v => Admitted digest config conn.trace v
  | .sendSessionKey v => ∃ before, Admitted digest config before v ∧
      conn.trace = before ++ [.sent (.visitorAck .ok)]
  | .lockVisitor v => ∃ before, Admitted digest config before v ∧
      conn.trace = before ++
        [.sent (.visitorAck .ok), .sent (.auth v.sessionNonce)]
  | .finished (.controlEstablished d key service) =>
      ∃ before, Authenticated digest before d key service ∧
        conn.trace = before ++ [.sent (.ack .ok)]
  | .finished (.visitorEstablished v) => ∃ before, Admitted digest config before v ∧
      conn.trace = before ++
        [.sent (.visitorAck .ok), .sent (.auth v.sessionNonce)]
  | .finished (.handedOver key _) => conn.trace = dataEvents key
  | _ => True

variable {digest}

theorem readHello_eq_ok {m : PacketMessage} {h : Hello}
    (hm : readHello m = .ok h) :
    m = .hello h ∧ h.version = currentProtoVersion := by
  unfold readHello at hm
  split at hm
  · split at hm
    · cases hm
    · rename_i hversion
      cases hm
      exact ⟨rfl, not_not.mp hversion⟩
  · cases hm

theorem readAuth_eq_ok {m : PacketMessage} {h : Digest}
    (hm : Rathole.readAuth m = .ok h) : m = .auth h := by
  unfold Rathole.readAuth at hm
  split at hm
  · cases hm
    rfl
  · cases hm

theorem readVisitorAuth_eq_ok {m : PacketMessage} {a : VisitorAuth}
    (hm : Rathole.readVisitorAuth m = .ok a) : m = .visitorAuth a := by
  unfold Rathole.readVisitorAuth at hm
  split at hm
  · cases hm
    rfl
  · cases hm

/-- A visitor that passes was found among the users and may bind its port. -/
theorem checkVisitor_eq_ok {config : ServerConfig} {nonce sessionNonce : Nonce}
    {auth : VisitorAuth} {v : Visitor}
    (h : checkVisitor digest config nonce auth sessionNonce = .ok v) :
    v.auth = auth ∧ v.sessionNonce = sessionNonce ∧
      config.users.lookup v.userName = some v.user ∧
      auth.tokenDigest = digest (challenge v.user.token nonce) ∧
      ∃ addr, SocketAddr.parse auth.bindAddr = some addr ∧
        isPortAllowed v.user.allowedPorts addr.port = true := by
  unfold checkVisitor at h
  split at h
  · cases h
  · rename_i userName user hfind
    split at h
    · cases h
    · rename_i addr haddr
      split at h
      · rename_i hport
        cases h
        have hdigest := List.find?_some hfind
        refine ⟨rfl, rfl, ?_, (decide_eq_true_eq.mp hdigest).symm,
          addr, haddr, hport⟩
        exact HashMap.mem_entries_iff.mp (List.mem_of_find?_eq_some hfind)
      · cases h

/-! ## The events follow the await point -/

theorem Conn.Ok.receive {config : ServerConfig} {conn conn' : Conn}
    {m : PacketMessage} {nonce : Nonce} (hok : conn.Ok digest config)
    (h : Server.receive digest config conn m nonce = some conn') :
    conn'.Ok digest config := by
  unfold Server.receive at h
  unfold Conn.Ok at hok
  split at h
  · -- the hello decides which handshake is run
    rename_i hpc
    rw [hpc] at hok
    dsimp only at hok
    split at h
    · cases h
      trivial
    all_goals
      rename_i hread
      obtain ⟨rfl, hversion⟩ := readHello_eq_ok hread
      cases h
      change _ = currentProtoVersion at hversion
      subst hversion
      simp [Conn.Ok, Conn.goto, hok, dataEvents]
  · rename_i d nonce service hpc
    rw [hpc] at hok
    dsimp only at hok
    split at h
    · cases h
      trivial
    · rename_i hauth hread
      obtain rfl := readAuth_eq_ok hread
      dsimp only at h
      split at h
      · cases h
        trivial
      · rename_i hkey
        cases h
        refine ⟨nonce, ?_, rfl⟩
        simp [Conn.goto, hok, controlEvents, not_not.mp hkey]
  · rename_i challengeNonce hpc
    rw [hpc] at hok
    obtain ⟨w, hok⟩ := hok
    split at h
    · cases h
      trivial
    · rename_i auth hread
      obtain rfl := readVisitorAuth_eq_ok hread
      split at h
      · cases h
        trivial
      · rename_i v hcheck
        cases h
        obtain ⟨rfl, rfl, huser, htoken, hport⟩ := checkVisitor_eq_ok hcheck
        refine ⟨w, challengeNonce, ?_, huser, htoken, hport⟩
        simp [Conn.goto, hok, visitorEvents]
  · cases h

theorem Conn.Ok.proceed {s : State} {c : ConnId} {conn conn' : Conn}
    {e : Effect} (hok : conn.Ok digest s.config)
    (h : Server.proceed digest s c conn = some (conn', e)) :
    conn'.Ok digest s.config := by
  obtain ⟨pc, trace, session⟩ := conn
  cases pc with
  | sendHello d nonce =>
      cases h
      simp only [Conn.Ok] at hok
      simp [Conn.Ok, Conn.goto, hok]
  | lookupService d nonce =>
      simp only [Server.proceed] at h
      simp only [Conn.Ok] at hok
      split at h
      · split at h
        · cases h
          simp [Conn.Ok, Conn.goto, hok]
        · cases h
          trivial
      · cases h
  | sendNoService d =>
      cases h
      trivial
  | sendAuthFailed service =>
      cases h
      trivial
  | lockControl d key service =>
      simp only [Server.proceed] at h
      split at h
      · cases h
        simpa [Conn.Ok, Conn.goto] using hok
      · cases h
  | sendAck d key service =>
      cases h
      exact ⟨trace, hok, rfl⟩
  | lockData key =>
      simp only [Server.proceed] at h
      simp only [Conn.Ok] at hok
      split at h
      · split at h
        · cases h
          simp [Conn.Ok, Conn.goto, hok]
        · cases h
          trivial
      · cases h
  | handOver key owner =>
      simp only [Server.proceed] at h
      simp only [Conn.Ok] at hok
      split at h
      · cases h
        trivial
      · split at h
        · cases h
          simp [Conn.Ok, Conn.goto, hok]
        · cases h
  | sendChallenge nonce =>
      cases h
      obtain ⟨w, rfl⟩ := hok
      exact ⟨w, rfl⟩
  | sendRefusal ack message =>
      cases h
      trivial
  | sendVisitorOk v =>
      cases h
      exact ⟨trace, hok, rfl⟩
  | sendSessionKey v =>
      cases h
      obtain ⟨before, hbefore, rfl⟩ := hok
      exact ⟨before, hbefore, by simp [Conn.goto]⟩
  | lockVisitor v =>
      simp only [Server.proceed] at h
      split at h
      · cases h
        obtain ⟨before, hbefore, rfl⟩ := hok
        exact ⟨before, hbefore, by simp [Conn.goto]⟩
      · cases h
  | readHello => cases h
  | readAuth d nonce service => cases h
  | readVisitorAuth nonce => cases h
  | finished outcome => cases h

theorem Conn.Ok.localStep {s : State} {c : ConnId} {conn conn' : Conn}
    {l : Local} {e : Effect} (hok : conn.Ok digest s.config)
    (h : Server.localStep digest s c conn l = some (conn', e)) :
    conn'.Ok digest s.config := by
  cases l with
  | receive m nonce =>
      obtain ⟨conn', hrecv, heq⟩ := Option.map_eq_some_iff.mp h
      cases heq
      exact hok.receive hrecv
  | proceed => exact hok.proceed h
  | abort =>
      obtain ⟨conn', habort, heq⟩ := Option.map_eq_some_iff.mp h
      cases heq
      unfold abort at habort
      split at habort
      · cases habort
      · cases habort
        trivial
  | confirm =>
      obtain ⟨x, -, heq⟩ := Option.map_eq_some_iff.mp h
      cases heq
      exact hok
  | command =>
      simp only [Server.localStep] at h
      split at h
      · cases h
        exact hok
      · cases h

/-! ## The steps that touch the shared data -/

/-- The digest, key and service of a session that is established. -/
def Pc.established (digest : Bytes → Digest) :
    Pc → Option (Digest × Nonce × ServerServiceConfig)
  | .finished (.controlEstablished d key service) => some (d, key, service)
  | .finished (.visitorEstablished v) =>
      some (visitorDigest digest v, v.sessionNonce, visitorService v)
  | _ => none

/-- The session key that is known to the peer at an await point, or may be. -/
def Pc.offers : Pc → Option Nonce
  | .sendAck _ key _ => some key
  | .sendSessionKey v => some v.sessionNonce
  | .lockVisitor v => some v.sessionNonce
  | .finished (.controlEstablished _ key _) => some key
  | .finished (.visitorEstablished v) => some v.sessionNonce
  | _ => none

/-- The session key that is offered by getting past an await point. -/
def Pc.issues : Pc → Option Nonce
  | .lockControl _ key _ => some key
  | .sendVisitorOk v => some v.sessionNonce
  | _ => none

def Conn.key (conn : Conn) : Option Nonce := conn.session.map Session.key

/-- A step that leaves the shared data alone. -/
structure Quiet (digest : Bytes → Digest) (s : State) (conn : Conn) (l : Local)
    (conn' : Conn) : Prop where
  finished : ∀ o, conn.pc = .finished o → conn'.pc = conn.pc
  established : (conn'.pc.established digest).isSome → conn'.pc = conn.pc
  writes : conn'.pc.writesChannels = true → conn'.pc = conn.pc
  reads : ∀ key owner, conn'.pc = .handOver key owner → conn'.pc = conn.pc ∨
    ∃ handle, s.controlChannels.get2 key = some handle ∧ handle.owner = owner
  key : conn'.key = conn.key ∨ (l = .proceed ∧ conn'.key = conn.pc.issues)
  offers : ∀ k, conn'.pc.offers = some k →
    (conn.pc.offers = some k ∧ conn'.key = conn.key) ∨ conn'.key = some k
  handed : ∀ key owner, conn'.pc = .finished (.handedOver key owner) →
    conn'.pc = conn.pc

/-- What one step of a connection can do to the data it shares, and from
where. -/
inductive Shape (digest : Bytes → Digest) (s : State) (c : ConnId)
    (conn : Conn) : Local → Conn → Effect → Prop where
  | quiet {l : Local} {conn' : Conn} (h : Quiet digest s conn l conn') :
      Shape digest s c conn l conn' .none
  | drop {d : Digest} {key : Nonce} {service : ServerServiceConfig}
      (hlock : s.channelsWritable = true)
      (hpc : conn.pc = .lockControl d key service) :
      Shape digest s c conn .proceed ⟨.sendAck d key service, conn.trace,
        some ⟨key, false, false, false⟩⟩ (.drop d)
  | install {d : Digest} {key : Nonce} {service : ServerServiceConfig}
      {conn' : Conn} (hpc : conn.pc = .sendAck d key service)
      (hpc' : conn'.pc = .finished (.controlEstablished d key service))
      (hkey : conn'.key = conn.key) :
      Shape digest s c conn .proceed conn'
        (.install d key ⟨c, service, s.config.heartbeatInterval⟩)
  | replace {v : Visitor} {conn' : Conn} (hlock : s.channelsWritable = true)
      (hpc : conn.pc = .lockVisitor v)
      (hpc' : conn'.pc = .finished (.visitorEstablished v))
      (hkey : conn'.key = conn.key) :
      Shape digest s c conn .proceed conn'
        (.replace (visitorDigest digest v) v.sessionNonce
          ⟨c, visitorService v, s.config.heartbeatInterval⟩)
  | hand {key : Nonce} {owner : ConnId} {conn' : Conn}
      (hpc : conn.pc = .handOver key owner)
      (hpc' : conn'.pc = .finished (.handedOver key owner))
      (hkey : conn'.key = conn.key) :
      Shape digest s c conn .proceed conn' (.hand owner)

def Pc.running : Pc → Bool
  | .finished _ => false
  | _ => true

/-- Await points at which nothing of the shared data is known or held. -/
def Pc.plain : Pc → Bool
  | .sendAck .. => false
  | .handOver .. => false
  | .sendSessionKey _ => false
  | .lockVisitor _ => false
  | .finished (.controlEstablished ..) => false
  | .finished (.visitorEstablished _) => false
  | .finished (.handedOver ..) => false
  | _ => true

theorem Pc.plain_spec (digest : Bytes → Digest) {pc : Pc}
    (h : pc.plain = true) :
    pc.established digest = none ∧ pc.offers = none ∧
      pc.writesChannels = false := by
  cases pc with
  | finished o =>
      cases o <;>
        simp_all [Pc.plain, Pc.established, Pc.offers, Pc.writesChannels]
  | _ => simp_all [Pc.plain, Pc.established, Pc.offers, Pc.writesChannels]

/-- Most steps: from a point that is not the end to a plain one. -/
theorem quiet_of_plain {s : State} {conn conn' : Conn} {l : Local}
    (hrun : conn.pc.running = true) (hplain : conn'.pc.plain = true)
    (hkey : conn'.key = conn.key) : Quiet digest s conn l conn' where
  finished o ho := by
    rw [ho] at hrun
    cases hrun
  established hest := by
    rw [(Pc.plain_spec digest hplain).1] at hest
    cases hest
  writes hw := by
    rw [(Pc.plain_spec digest hplain).2.2] at hw
    cases hw
  reads key owner hpc := by
    rw [hpc] at hplain
    cases hplain
  key := Or.inl hkey
  offers k hk := by
    rw [(Pc.plain_spec digest hplain).2.1] at hk
    cases hk
  handed key owner hpc := by
    rw [hpc] at hplain
    cases hplain

theorem quiet_receive {s : State} {conn conn' : Conn} {m : PacketMessage}
    {nonce : Nonce} (h : receive digest s.config conn m nonce = some conn') :
    Quiet digest s conn (.receive m nonce) conn' := by
  obtain ⟨pc, trace, session⟩ := conn
  unfold receive at h
  split at h
  · rename_i hpc
    obtain rfl : pc = .readHello := hpc
    split at h
    all_goals
      cases h
      exact quiet_of_plain rfl rfl rfl
  · rename_i hpc
    obtain rfl : pc = .readAuth .. := hpc
    split at h
    · cases h
      exact quiet_of_plain rfl rfl rfl
    · dsimp only at h
      split at h
      all_goals
        cases h
        exact quiet_of_plain rfl rfl rfl
  · rename_i hpc
    obtain rfl : pc = .readVisitorAuth _ := hpc
    split at h
    · cases h
      exact quiet_of_plain rfl rfl rfl
    · split at h
      all_goals
        cases h
        exact quiet_of_plain rfl rfl rfl
  · cases h

theorem quiet_abort {s : State} {conn conn' : Conn} (h : abort conn = some conn') :
    Quiet digest s conn .abort conn' := by
  obtain ⟨pc, trace, session⟩ := conn
  cases pc with
  | finished outcome => cases h
  | _ =>
      cases h
      exact quiet_of_plain rfl rfl rfl

/-- What the peer reads moves nothing in the server. -/
theorem quiet_session {s : State} {conn : Conn} {l : Local} {x x' : Session}
    (hx : conn.session = some x) (hkey : x'.key = x.key) :
    Quiet digest s conn l { conn with session := some x' } where
  finished _ _ := rfl
  established _ := rfl
  writes _ := rfl
  reads _ _ _ := Or.inl rfl
  key := Or.inl (by simp [Conn.key, hx, hkey])
  offers k hk := Or.inl ⟨hk, by simp [Conn.key, hx, hkey]⟩
  handed _ _ _ := rfl

theorem shape_proceed {s : State} {c : ConnId} {conn conn' : Conn} {e : Effect}
    (h : proceed digest s c conn = some (conn', e)) :
    Shape digest s c conn .proceed conn' e := by
  obtain ⟨pc, trace, session⟩ := conn
  cases pc with
  | lookupService d nonce =>
      simp only [proceed] at h
      split at h
      · split at h
        all_goals
          cases h
          exact .quiet (quiet_of_plain rfl rfl rfl)
      · cases h
  | lockControl d key service =>
      simp only [proceed] at h
      split at h
      · rename_i hlock
        cases h
        have hshape : Shape digest s c ⟨.lockControl d key service, trace,
            session⟩ .proceed _ (.drop d) := .drop hlock rfl
        simpa [Conn.goto] using hshape
      · cases h
  | sendAck d key service =>
      cases h
      refine .install rfl rfl ?_
      cases session <;> rfl
  | lockData key =>
      simp only [proceed] at h
      split at h
      · split at h
        · rename_i handle hhandle
          cases h
          refine .quiet ⟨nofun, nofun, nofun, ?_, .inl rfl, nofun, nofun⟩
          rintro _ _ ⟨⟩
          exact Or.inr ⟨handle, hhandle, rfl⟩
        · cases h
          exact .quiet (quiet_of_plain rfl rfl rfl)
      · cases h
  | handOver key owner =>
      simp only [proceed] at h
      split at h
      · cases h
        exact .quiet (quiet_of_plain rfl rfl rfl)
      · split at h
        · cases h
          exact .hand rfl rfl rfl
        · cases h
  | sendVisitorOk v =>
      cases h
      refine .quiet ⟨nofun, nofun, nofun, nofun, .inr ⟨rfl, rfl⟩, ?_, nofun⟩
      exact fun k hk => Or.inr hk
  | sendSessionKey v =>
      cases h
      have hkey : (session.map (fun x => { x with made := true })).map
          Session.key = session.map Session.key := by
        cases session <;> rfl
      exact .quiet ⟨nofun, nofun, nofun, nofun, .inl hkey,
        fun k hk => Or.inl ⟨hk, hkey⟩, nofun⟩
  | lockVisitor v =>
      simp only [proceed] at h
      split at h
      · rename_i hlock
        cases h
        exact .replace hlock rfl rfl rfl
      · cases h
  | readHello => cases h
  | readAuth d nonce service => cases h
  | readVisitorAuth nonce => cases h
  | finished outcome => cases h
  | _ =>
      cases h
      exact .quiet (quiet_of_plain rfl rfl rfl)

/-- Every step of a connection has one of the shapes. -/
theorem shape_localStep {s : State} {c : ConnId} {conn conn' : Conn} {l : Local}
    {e : Effect} (h : localStep digest s c conn l = some (conn', e)) :
    Shape digest s c conn l conn' e := by
  cases l with
  | receive m nonce =>
      obtain ⟨conn', hrecv, heq⟩ := Option.map_eq_some_iff.mp h
      cases heq
      exact .quiet (quiet_receive hrecv)
  | proceed => exact shape_proceed h
  | abort =>
      obtain ⟨conn', habort, heq⟩ := Option.map_eq_some_iff.mp h
      cases heq
      exact .quiet (quiet_abort habort)
  | confirm =>
      obtain ⟨x, hx, heq⟩ := Option.map_eq_some_iff.mp h
      cases heq
      exact .quiet (quiet_session hx rfl)
  | command =>
      simp only [localStep] at h
      split at h
      · rename_i hx
        cases h
        exact .quiet (quiet_session hx rfl)
      · cases h

end

end Rathole.Server
