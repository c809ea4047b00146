import Rathole.Server.Interleaving

/-!
# The server's part in a handshake

What a connection's task can have seen and done by the time it stands at a
given await point: `Script` is the server's side of the protocol, with all its
refusals and with the task cancelled at any point. From what was written on
the connection follows what had been read before, and where the task stands.
-/

namespace Rathole.Server

/-- What is written on a control connection: frames, and the bare challenge of
a visitor. -/
inductive Item where
  | frame (m : PacketMessage)
  | raw (nonce : Nonce)
deriving DecidableEq

def Event.item? : Event → Option Item
  | .sent m => some (.frame m)
  | .sentRaw nonce => some (.raw nonce)
  | _ => none

def Event.message? : Event → Option PacketMessage
  | .received m => some m
  | _ => none

/-- What the server has written, oldest first. -/
def said (trace : List Event) : List Item := trace.filterMap Event.item?

/-- What the server has read, oldest first. -/
def heard (trace : List Event) : List PacketMessage :=
  trace.filterMap Event.message?

def helloEvents (d : Digest) (nonce : Nonce) : List Event :=
  [.received (.hello (.controlChannelHello currentProtoVersion d)),
    .drew nonce]

def lookupEvents (d : Digest) (nonce : Nonce) : List Event :=
  helloEvents d nonce ++
    [.sent (.hello (.controlChannelHello currentProtoVersion nonce))]

def challengeEvents (w : Digest) (nonce : Nonce) : List Event :=
  [.received (.hello (.visitorHello currentProtoVersion w)), .drew nonce]

section

variable (digest : Bytes → Digest) (config : ServerConfig)

inductive Script : Pc → List Event → Prop where
  | readHello : Script .readHello []
  | badHello (m : PacketMessage) (e : String) :
      Script (.finished (.bailed e)) [.received m]
  -- do_control_channel_handshake
  | sendHello (d : Digest) (nonce : Nonce) :
      Script (.sendHello d nonce) (helloEvents d nonce)
  | lookupService (d : Digest) (nonce : Nonce) :
      Script (.lookupService d nonce) (lookupEvents d nonce)
  | sendNoService (d : Digest) (nonce : Nonce) :
      Script (.sendNoService d) (lookupEvents d nonce)
  | noService (d : Digest) (nonce : Nonce) (e : String) :
      Script (.finished (.bailed e))
        (lookupEvents d nonce ++ [.sent (.ack .serviceNotExist)])
  | readAuth (d : Digest) (nonce : Nonce) (service : ServerServiceConfig) :
      Script (.readAuth d nonce service)
        (lookupEvents d nonce ++ [.found d service])
  | badAuth (d : Digest) (nonce : Nonce) (service : ServerServiceConfig)
      (m : PacketMessage) (e : String) : Script (.finished (.bailed e))
        (lookupEvents d nonce ++ [.found d service, .received m])
  | sendAuthFailed (d : Digest) (nonce : Nonce) (service : ServerServiceConfig)
      (h : Digest) (hkey : digest (challenge service.token nonce) ≠ h) :
      Script (.sendAuthFailed service) (controlEvents d nonce service h)
  | authFailed (d : Digest) (nonce : Nonce) (service : ServerServiceConfig)
      (h : Digest) (e : String)
      (hkey : digest (challenge service.token nonce) ≠ h) :
      Script (.finished (.bailed e))
        (controlEvents d nonce service h ++ [.sent (.ack .authFailed)])
  | lockControl (d : Digest) (nonce : Nonce) (service : ServerServiceConfig) :
      Script (.lockControl d (digest (challenge service.token nonce)) service)
        (controlEvents d nonce service
          (digest (challenge service.token nonce)))
  | sendAck (d : Digest) (nonce : Nonce) (service : ServerServiceConfig) :
      Script (.sendAck d (digest (challenge service.token nonce)) service)
        (controlEvents d nonce service
          (digest (challenge service.token nonce)))
  | controlEstablished (d : Digest) (nonce : Nonce)
      (service : ServerServiceConfig) :
      Script (.finished (.controlEstablished d
          (digest (challenge service.token nonce)) service))
        (controlEvents d nonce service
          (digest (challenge service.token nonce)) ++ [.sent (.ack .ok)])
  -- do_data_channel_handshake
  | lockData (key : Nonce) : Script (.lockData key) (dataEvents key)
  | handOver (key : Nonce) (owner : ConnId) :
      Script (.handOver key owner) (dataEvents key)
  | warned (key : Nonce) (e : String) :
      Script (.finished (.warned e)) (dataEvents key)
  | stale (key : Nonce) (e : String) :
      Script (.finished (.bailed e)) (dataEvents key)
  | handedOver (key : Nonce) (owner : ConnId) :
      Script (.finished (.handedOver key owner)) (dataEvents key)
  -- do_visitor_channel_handshake
  | sendChallenge (w : Digest) (nonce : Nonce) :
      Script (.sendChallenge nonce) (challengeEvents w nonce)
  | readVisitorAuth (w : Digest) (nonce : Nonce) :
      Script (.readVisitorAuth nonce)
        (challengeEvents w nonce ++ [.sentRaw nonce])
  | badVisitorAuth (w : Digest) (nonce : Nonce) (m : PacketMessage)
      (e : String) : Script (.finished (.bailed e))
        (challengeEvents w nonce ++ [.sentRaw nonce, .received m])
  | sendRefusal (w : Digest) (nonce : Nonce) (auth : VisitorAuth)
      (sessionNonce : Nonce) (ack : VisitorAck) (e : String)
      (hcheck : checkVisitor digest config nonce auth sessionNonce =
        .error (ack, e)) :
      Script (.sendRefusal ack e) (challengeEvents w nonce ++
        [.sentRaw nonce, .received (.visitorAuth auth)])
  | refused (w : Digest) (nonce : Nonce) (auth : VisitorAuth)
      (sessionNonce : Nonce) (ack : VisitorAck) (e : String)
      (hcheck : checkVisitor digest config nonce auth sessionNonce =
        .error (ack, e)) :
      Script (.finished (.bailed e)) (challengeEvents w nonce ++
        [.sentRaw nonce, .received (.visitorAuth auth),
          .sent (.visitorAck ack)])
  | sendVisitorOk (w : Digest) (nonce : Nonce) (v : Visitor)
      (hcheck : checkVisitor digest config nonce v.auth v.sessionNonce =
        .ok v) :
      Script (.sendVisitorOk v) (visitorEvents w nonce v.auth v.sessionNonce)
  | sendSessionKey (w : Digest) (nonce : Nonce) (v : Visitor)
      (hcheck : checkVisitor digest config nonce v.auth v.sessionNonce =
        .ok v) :
      Script (.sendSessionKey v)
        (visitorEvents w nonce v.auth v.sessionNonce ++
          [.sent (.visitorAck .ok)])
  | lockVisitor (w : Digest) (nonce : Nonce) (v : Visitor)
      (hcheck : checkVisitor digest config nonce v.auth v.sessionNonce =
        .ok v) :
      Script (.lockVisitor v)
        (visitorEvents w nonce v.auth v.sessionNonce ++
          [.sent (.visitorAck .ok), .sent (.auth v.sessionNonce)])
  | visitorEstablished (w : Digest) (nonce : Nonce) (v : Visitor)
      (hcheck : checkVisitor digest config nonce v.auth v.sessionNonce =
        .ok v) :
      Script (.finished (.visitorEstablished v))
        (visitorEvents w nonce v.auth v.sessionNonce ++
          [.sent (.visitorAck .ok), .sent (.auth v.sessionNonce)])
  | aborted {pc : Pc} {trace : List Event} (h : Script pc trace)
      (hrun : pc.running = true) : Script (.finished .aborted) trace

end

section

variable {digest : Bytes → Digest} {config : ServerConfig}

theorem Script.receive {conn conn' : Conn} {m : PacketMessage} {nonce : Nonce}
    (h : Script digest config conn.pc conn.trace)
    (hs : Server.receive digest config conn m nonce = some conn') :
    Script digest config conn'.pc conn'.trace := by
  obtain ⟨pc, trace, session⟩ := conn
  dsimp only at h
  cases h with
  | readHello =>
      simp only [Server.receive] at hs
      split at hs
      · cases hs
        exact .badHello m _
      all_goals
        rename_i hread
        obtain ⟨rfl, hversion⟩ := readHello_eq_ok hread
        cases hs
        change _ = currentProtoVersion at hversion
        subst hversion
      · exact .sendHello _ nonce
      · exact .lockData _
      · exact .sendChallenge _ nonce
  | readAuth d n service =>
      simp only [Server.receive] at hs
      split at hs
      · cases hs
        exact .badAuth d n service m _
      · rename_i k hread
        obtain rfl := readAuth_eq_ok hread
        split at hs
        · rename_i hkey
          cases hs
          exact .sendAuthFailed d n service k hkey
        · rename_i hkey
          cases hs
          obtain rfl := not_not.mp hkey
          exact .lockControl d n service
  | readVisitorAuth w n =>
      simp only [Server.receive] at hs
      split at hs
      · cases hs
        exact .badVisitorAuth w n m _
      · rename_i auth hread
        obtain rfl := readVisitorAuth_eq_ok hread
        split at hs
        · rename_i ack e hcheck
          cases hs
          exact .sendRefusal w n auth nonce ack e hcheck
        · rename_i v hcheck
          cases hs
          obtain ⟨rfl, rfl, -⟩ := checkVisitor_eq_ok hcheck
          exact .sendVisitorOk w n v hcheck
  | _ => cases hs

theorem Script.proceed {s : State} {c : ConnId} {conn conn' : Conn}
    {e : Effect} (h : Script digest config conn.pc conn.trace)
    (hs : Server.proceed digest s c conn = some (conn', e)) :
    Script digest config conn'.pc conn'.trace := by
  obtain ⟨pc, trace, session⟩ := conn
  dsimp only at h
  cases h with
  | sendHello d nonce =>
      cases hs
      exact .lookupService d nonce
  | lookupService d nonce =>
      simp only [Server.proceed] at hs
      split at hs
      · split at hs
        · cases hs
          exact .readAuth d nonce _
        · cases hs
          simp only [Conn.goto, List.append_nil]
          exact .sendNoService d nonce
      · cases hs
  | sendNoService d nonce =>
      cases hs
      exact .noService d nonce _
  | sendAuthFailed d nonce service k hkey =>
      cases hs
      exact .authFailed d nonce service k _ hkey
  | lockControl d nonce service =>
      simp only [Server.proceed] at hs
      split at hs
      · cases hs
        simp only [Conn.goto, List.append_nil]
        exact .sendAck d nonce service
      · cases hs
  | sendAck d nonce service =>
      cases hs
      exact .controlEstablished d nonce service
  | lockData key =>
      simp only [Server.proceed] at hs
      split at hs
      · split at hs
        · cases hs
          simp only [Conn.goto, List.append_nil]
          exact .handOver key _
        · cases hs
          simp only [Conn.goto, List.append_nil]
          exact .warned key _
      · cases hs
  | handOver key owner =>
      simp only [Server.proceed] at hs
      split at hs
      · cases hs
        simp only [Conn.goto, List.append_nil]
        exact .stale key _
      · split at hs
        · cases hs
          simp only [Conn.goto, List.append_nil]
          exact .handedOver key owner
        · cases hs
  | sendChallenge w nonce =>
      cases hs
      exact .readVisitorAuth w nonce
  | sendRefusal w nonce auth sessionNonce ack e hcheck =>
      cases hs
      exact .refused w nonce auth sessionNonce ack e hcheck
  | sendVisitorOk w nonce v hcheck =>
      cases hs
      exact .sendSessionKey w nonce v hcheck
  | sendSessionKey w nonce v hcheck =>
      cases hs
      exact .lockVisitor w nonce v hcheck
  | lockVisitor w nonce v hcheck =>
      simp only [Server.proceed] at hs
      split at hs
      · cases hs
        simp only [Conn.goto, List.append_nil]
        exact .visitorEstablished w nonce v hcheck
      · cases hs
  | _ => cases hs

/-- **Step lemma**: a connection's task keeps to its script. -/
theorem Script.localStep {s : State} {c : ConnId} {conn conn' : Conn}
    {l : Local} {e : Effect} (h : Script digest s.config conn.pc conn.trace)
    (hs : Server.localStep digest s c conn l = some (conn', e)) :
    Script digest s.config conn'.pc conn'.trace := by
  cases l with
  | receive m nonce =>
      obtain ⟨conn', hrecv, heq⟩ := Option.map_eq_some_iff.mp hs
      cases heq
      exact h.receive hrecv
  | proceed => exact h.proceed hs
  | abort =>
      obtain ⟨conn', habort, heq⟩ := Option.map_eq_some_iff.mp hs
      cases heq
      unfold abort at habort
      split at habort
      · cases habort
      · rename_i hne
        cases habort
        simp only [Conn.goto, List.append_nil]
        refine .aborted h ?_
        unfold Pc.running
        split
        · rename_i o ho
          exact absurd ho (hne o)
        · rfl
  | confirm =>
      obtain ⟨x, -, heq⟩ := Option.map_eq_some_iff.mp hs
      cases heq
      exact h
  | command =>
      simp only [Server.localStep] at hs
      split at hs
      · cases hs
        exact h
      · cases hs

/-! ## What has been said -/

/-- A connection's script, as its peer can tell from what is written to it. -/
inductive Spoken (digest : Bytes → Digest) (config : ServerConfig) :
    Pc → List Event → Prop where
  | silent {pc : Pc} {trace : List Event} (hsaid : said trace = []) :
      Spoken digest config pc trace
  | greeted {pc : Pc} {trace : List Event} (d nonce : Digest)
      (hheard : (heard trace).head? =
        some (.hello (.controlChannelHello currentProtoVersion d)))
      (hsaid : said trace =
        [.frame (.hello (.controlChannelHello currentProtoVersion nonce))]) :
      Spoken digest config pc trace
  | denied {pc : Pc} {trace : List Event} (d nonce : Digest) (ack : Ack)
      (hheard : (heard trace).head? =
        some (.hello (.controlChannelHello currentProtoVersion d)))
      (hack : ack ≠ .ok) (hsaid : said trace =
        [.frame (.hello (.controlChannelHello currentProtoVersion nonce)),
          .frame (.ack ack)])
      (hwhy : (ack = .serviceNotExist ∧ trace = lookupEvents d nonce ++
          [.sent (.ack .serviceNotExist)]) ∨
        ∃ service h, ack = .authFailed ∧
          digest (challenge service.token nonce) ≠ h ∧
          trace = controlEvents d nonce service h ++
            [.sent (.ack .authFailed)]) : Spoken digest config pc trace
  | admitted (d nonce : Digest) (service : ServerServiceConfig) :
      Spoken digest config (.finished (.controlEstablished d
          (digest (challenge service.token nonce)) service))
        (controlEvents d nonce service
          (digest (challenge service.token nonce)) ++ [.sent (.ack .ok)])
  | challenged {pc : Pc} {trace : List Event} (w nonce : Digest)
      (hheard : (heard trace).head? =
        some (.hello (.visitorHello currentProtoVersion w)))
      (hsaid : said trace = [.raw nonce]) : Spoken digest config pc trace
  | refused {pc : Pc} {trace : List Event} (w nonce : Digest)
      (ack : VisitorAck)
      (hheard : (heard trace).head? =
        some (.hello (.visitorHello currentProtoVersion w)))
      (hack : ack ≠ .ok)
      (hsaid : said trace = [.raw nonce, .frame (.visitorAck ack)])
      (hwhy : ∃ auth sessionNonce e, checkVisitor digest config nonce auth
          sessionNonce = .error (ack, e) ∧
        trace = challengeEvents w nonce ++ [.sentRaw nonce,
          .received (.visitorAuth auth), .sent (.visitorAck ack)]) :
      Spoken digest config pc trace
  | welcomed {pc : Pc} {trace : List Event} (w nonce : Digest)
      (hheard : (heard trace).head? =
        some (.hello (.visitorHello currentProtoVersion w)))
      (hsaid : said trace = [.raw nonce, .frame (.visitorAck .ok)]) :
      Spoken digest config pc trace
  | keyed {pc : Pc} (w nonce : Digest) (v : Visitor)
      (hcheck : checkVisitor digest config nonce v.auth v.sessionNonce =
        .ok v)
      (hpc : pc = .lockVisitor v ∨ pc = .finished (.visitorEstablished v) ∨
        pc = .finished .aborted) :
      Spoken digest config pc (visitorEvents w nonce v.auth v.sessionNonce ++
        [.sent (.visitorAck .ok), .sent (.auth v.sessionNonce)])

/-- A visitor that fails a check is not told otherwise. -/
theorem checkVisitor_error {nonce sessionNonce : Nonce} {auth : VisitorAuth}
    {ack : VisitorAck} {e : String}
    (h : checkVisitor digest config nonce auth sessionNonce =
      .error (ack, e)) : ack ≠ .ok := by
  unfold checkVisitor at h
  split at h
  · cases h
    exact VisitorAck.noConfusion
  · split at h
    · cases h
      exact VisitorAck.noConfusion
    · split at h
      · cases h
      · cases h
        exact VisitorAck.noConfusion

theorem Script.spoken {pc : Pc} {trace : List Event}
    (h : Script digest config pc trace) : Spoken digest config pc trace := by
  induction h with
  | lookupService d nonce => exact .greeted d nonce rfl rfl
  | sendNoService d nonce => exact .greeted d nonce rfl rfl
  | noService d nonce e =>
      exact .denied d nonce _ rfl Ack.noConfusion rfl (Or.inl ⟨rfl, rfl⟩)
  | readAuth d nonce service =>
      exact .greeted d nonce rfl rfl
  | badAuth d nonce service m e =>
      exact .greeted d nonce rfl rfl
  | sendAuthFailed d nonce service k hkey =>
      exact .greeted d nonce rfl rfl
  | authFailed d nonce service k e hkey =>
      exact .denied d nonce _ rfl Ack.noConfusion rfl
        (Or.inr ⟨service, k, rfl, hkey, rfl⟩)
  | lockControl d nonce service =>
      exact .greeted d nonce rfl rfl
  | sendAck d nonce service =>
      exact .greeted d nonce rfl rfl
  | controlEstablished d nonce service => exact .admitted d nonce service
  | readVisitorAuth w nonce =>
      exact .challenged w nonce rfl rfl
  | badVisitorAuth w nonce m e =>
      exact .challenged w nonce rfl rfl
  | sendRefusal w nonce auth sessionNonce ack e hcheck =>
      exact .challenged w nonce rfl rfl
  | refused w nonce auth sessionNonce ack e hcheck =>
      exact .refused w nonce ack rfl (checkVisitor_error hcheck) rfl
        ⟨auth, sessionNonce, e, hcheck, rfl⟩
  | sendVisitorOk w nonce v hcheck =>
      exact .challenged w nonce rfl rfl
  | sendSessionKey w nonce v hcheck =>
      exact .welcomed w nonce rfl rfl
  | lockVisitor w nonce v hcheck => exact .keyed w nonce v hcheck (Or.inl rfl)
  | visitorEstablished w nonce v hcheck =>
      exact .keyed w nonce v hcheck (Or.inr (Or.inl rfl))
  | aborted h hrun ih =>
      cases ih with
      | silent hsaid => exact .silent hsaid
      | greeted d nonce hheard hsaid => exact .greeted d nonce hheard hsaid
      | denied d nonce ack hheard hack hsaid hwhy =>
          exact .denied d nonce ack hheard hack hsaid hwhy
      | admitted d nonce service => cases hrun
      | challenged w nonce hheard hsaid =>
          exact .challenged w nonce hheard hsaid
      | refused w nonce ack hheard hack hsaid hwhy =>
          exact .refused w nonce ack hheard hack hsaid hwhy
      | welcomed w nonce hheard hsaid => exact .welcomed w nonce hheard hsaid
      | keyed w nonce v hcheck hpc =>
          exact .keyed w nonce v hcheck (Or.inr (Or.inr rfl))
  | _ => exact .silent rfl

theorem said_admitted (d nonce key : Digest) (service : ServerServiceConfig) :
    said (controlEvents d nonce service key ++ [.sent (.ack .ok)]) =
      [.frame (.hello (.controlChannelHello currentProtoVersion nonce)),
        .frame (.ack .ok)] := rfl

theorem heard_admitted (d nonce key : Digest) (service : ServerServiceConfig) :
    heard (controlEvents d nonce service key ++ [.sent (.ack .ok)]) =
      [.hello (.controlChannelHello currentProtoVersion d), .auth key] := rfl

theorem said_keyed (w nonce key : Digest) (auth : VisitorAuth) :
    said (visitorEvents w nonce auth key ++
        [.sent (.visitorAck .ok), .sent (.auth key)]) =
      [.raw nonce, .frame (.visitorAck .ok), .frame (.auth key)] := rfl

theorem heard_keyed (w nonce key : Digest) (auth : VisitorAuth) :
    heard (visitorEvents w nonce auth key ++
        [.sent (.visitorAck .ok), .sent (.auth key)]) =
      [.hello (.visitorHello currentProtoVersion w), .visitorAuth auth] := rfl

/-- The last word of a handshake that goes well. -/
def Complete (trace : List Event) : Prop :=
  .sent (.ack .ok) ∈ trace ∨ ∃ key, .sent (.auth key) ∈ trace

theorem item_of_mem {trace : List Event} {m : PacketMessage}
    (h : Event.sent m ∈ trace) : Item.frame m ∈ said trace :=
  List.mem_filterMap.mpr ⟨_, h, rfl⟩

/-- After it there is nothing left to say. -/
theorem Spoken.complete {pc : Pc} {trace : List Event}
    (h : Spoken digest config pc trace) (hall : Complete trace) :
    (∃ d nonce service, trace = controlEvents d nonce service
        (digest (challenge service.token nonce)) ++ [.sent (.ack .ok)] ∧
      pc = .finished (.controlEstablished d
        (digest (challenge service.token nonce)) service)) ∨
    ∃ w nonce v, checkVisitor digest config nonce v.auth v.sessionNonce =
        .ok v ∧
      trace = visitorEvents w nonce v.auth v.sessionNonce ++
        [.sent (.visitorAck .ok), .sent (.auth v.sessionNonce)] ∧
      (pc = .lockVisitor v ∨ pc = .finished (.visitorEstablished v) ∨
        pc = .finished .aborted) := by
  have hitem : Item.frame (.ack .ok) ∈ said trace ∨
      ∃ key, Item.frame (.auth key) ∈ said trace := by
    rcases hall with hack | ⟨key, hkey⟩
    · exact Or.inl (item_of_mem hack)
    · exact Or.inr ⟨key, item_of_mem hkey⟩
  cases h with
  | admitted d nonce service => exact Or.inl ⟨d, nonce, service, rfl, rfl⟩
  | keyed w nonce v hcheck hpc =>
      exact Or.inr ⟨w, nonce, v, hcheck, rfl, hpc⟩
  | silent hsaid => simp [hsaid] at hitem
  | greeted d nonce hheard hsaid => simp [hsaid] at hitem
  | denied d nonce ack hheard hack hsaid =>
      simp [hsaid, hack.symm] at hitem
  | challenged w nonce hheard hsaid => simp [hsaid] at hitem
  | refused w nonce ack hheard hack hsaid => simp [hsaid] at hitem
  | welcomed w nonce hheard hsaid => simp [hsaid] at hitem

/-! ## Steps -/

variable {s : State} {c : ConnId} {conn conn' : Conn} {l : Local} {e : Effect}

/-- What a step reads on its connection. -/
def Local.message? : Local → Option PacketMessage
  | .receive m _ => some m
  | _ => none

/-- A frame that is read is one more event, and may make the task draw a
nonce. -/
theorem trace_receive {m : PacketMessage} {nonce : Nonce}
    (hs : Server.receive digest config conn m nonce = some conn') :
    ∃ events, conn'.trace = conn.trace ++ events ∧ heard events = [m] ∧
      said events = [] := by
  unfold Server.receive at hs
  split at hs
  · split at hs <;> cases hs
    · exact ⟨[.received m], rfl, rfl, rfl⟩
    · exact ⟨[.received m, .drew nonce], rfl, rfl, rfl⟩
    · exact ⟨[.received m], rfl, rfl, rfl⟩
    · exact ⟨[.received m, .drew nonce], rfl, rfl, rfl⟩
  · split at hs
    · cases hs
      exact ⟨[.received m], rfl, rfl, rfl⟩
    · dsimp only at hs
      split at hs <;> cases hs
      · exact ⟨[.received m], rfl, rfl, rfl⟩
      · exact ⟨[.received m], rfl, rfl, rfl⟩
  · split at hs
    · cases hs
      exact ⟨[.received m], rfl, rfl, rfl⟩
    · split at hs <;> cases hs
      · exact ⟨[.received m], rfl, rfl, rfl⟩
      · exact ⟨[.received m, .drew nonce], rfl, rfl, rfl⟩
  · cases hs

/-- A task that goes on by itself reads nothing. -/
theorem trace_proceed
    (hs : Server.proceed digest s c conn = some (conn', e)) :
    ∃ events, conn'.trace = conn.trace ++ events ∧ heard events = [] := by
  obtain ⟨pc, trace, session⟩ := conn
  cases pc with
  | lookupService d nonce =>
      simp only [Server.proceed] at hs
      split at hs
      · split at hs <;> cases hs
        · exact ⟨_, rfl, rfl⟩
        · exact ⟨[], rfl, rfl⟩
      · cases hs
  | lockControl d key service =>
      simp only [Server.proceed] at hs
      split at hs <;> cases hs
      exact ⟨[], rfl, rfl⟩
  | lockData key =>
      simp only [Server.proceed] at hs
      split at hs
      · split at hs <;> cases hs
        · exact ⟨[], rfl, rfl⟩
        · exact ⟨[], rfl, rfl⟩
      · cases hs
  | handOver key owner =>
      simp only [Server.proceed] at hs
      split at hs
      · cases hs
        exact ⟨[], rfl, rfl⟩
      · split at hs <;> cases hs
        exact ⟨[], rfl, rfl⟩
  | lockVisitor v =>
      simp only [Server.proceed] at hs
      split at hs <;> cases hs
      exact ⟨[], rfl, rfl⟩
  | readHello => cases hs
  | readAuth d nonce service => cases hs
  | readVisitorAuth nonce => cases hs
  | finished o => cases hs
  | _ =>
      cases hs
      exact ⟨_, rfl, rfl⟩

/-- A step adds to the events. It writes or it reads what arrives. -/
theorem localStep_trace
    (hs : Server.localStep digest s c conn l = some (conn', e)) :
    ∃ events, conn'.trace = conn.trace ++ events ∧
      heard events = l.message?.toList ∧
      (l.message? = none ∨ said events = []) := by
  have hnil : conn.trace = conn.trace ++ [] := (List.append_nil _).symm
  cases l with
  | receive m nonce =>
      obtain ⟨conn₁, hrecv, heq⟩ := Option.map_eq_some_iff.mp hs
      cases heq
      obtain ⟨events, htrace, hheard, hsaid⟩ := trace_receive hrecv
      exact ⟨events, htrace, hheard, Or.inr hsaid⟩
  | proceed =>
      obtain ⟨events, htrace, hheard⟩ := trace_proceed hs
      exact ⟨events, htrace, hheard, Or.inl rfl⟩
  | abort =>
      obtain ⟨conn₁, habort, heq⟩ := Option.map_eq_some_iff.mp hs
      cases heq
      unfold abort at habort
      split at habort <;> cases habort
      exact ⟨[], rfl, rfl, Or.inr rfl⟩
  | confirm =>
      obtain ⟨x, -, heq⟩ := Option.map_eq_some_iff.mp hs
      cases heq
      exact ⟨[], hnil, rfl, Or.inr rfl⟩
  | command =>
      simp only [Server.localStep] at hs
      split at hs <;> cases hs
      exact ⟨[], hnil, rfl, Or.inr rfl⟩

/-- A task that has had its last word says nothing more. -/
theorem Spoken.last_word (h : Spoken digest config conn.pc conn.trace)
    (hall : Complete conn.trace)
    (hs : Server.localStep digest s c conn l = some (conn', e)) :
    conn'.trace = conn.trace ∧ conn'.key = conn.key := by
  have hpc : (∃ v, conn.pc = .lockVisitor v) ∨ ∃ o, conn.pc = .finished o := by
    rcases h.complete hall with ⟨d, nonce, service, -, hpc⟩ |
      ⟨w, nonce, v, -, -, hpc | hpc | hpc⟩
    · exact Or.inr ⟨_, hpc⟩
    · exact Or.inl ⟨v, hpc⟩
    · exact Or.inr ⟨_, hpc⟩
    · exact Or.inr ⟨_, hpc⟩
  obtain ⟨pc, trace, session⟩ := conn
  cases l with
  | receive m nonce =>
      obtain ⟨conn', hrecv, heq⟩ := Option.map_eq_some_iff.mp hs
      rcases hpc with ⟨v, rfl⟩ | ⟨o, rfl⟩ <;> cases hrecv
  | proceed =>
      change Server.proceed digest s c ⟨pc, trace, session⟩ = _ at hs
      rcases hpc with ⟨v, rfl⟩ | ⟨o, rfl⟩
      · simp only [Server.proceed] at hs
        split at hs <;> cases hs
        exact ⟨List.append_nil trace, rfl⟩
      · cases hs
  | abort =>
      obtain ⟨conn', habort, heq⟩ := Option.map_eq_some_iff.mp hs
      cases heq
      unfold abort at habort
      split at habort <;> cases habort
      exact ⟨List.append_nil trace, rfl⟩
  | confirm =>
      obtain ⟨x, rfl, heq⟩ := Option.map_eq_some_iff.mp hs
      cases heq
      exact ⟨rfl, rfl⟩
  | command =>
      simp only [Server.localStep] at hs
      split at hs <;> cases hs
      exact ⟨rfl, rfl⟩

/-! ## The whole server -/

/-- Every connection keeps to its script, and its handle is made when the
last word is out. -/
def State.Scripted (digest : Bytes → Digest) (s : State) : Prop :=
  ∀ c conn, s.conns.lookup c = some conn →
    Script digest s.config conn.pc conn.trace ∧
    ∀ x, conn.session = some x → x.made = true → Complete conn.trace

theorem Complete.append {trace : List Event} (h : Complete trace)
    (events : List Event) : Complete (trace ++ events) := by
  rcases h with hack | ⟨key, hkey⟩
  · exact Or.inl (List.mem_append_left events hack)
  · exact Or.inr ⟨key, List.mem_append_left events hkey⟩

theorem session_receive {m : PacketMessage} {nonce : Nonce}
    (hs : Server.receive digest config conn m nonce = some conn') :
    conn'.session = conn.session := by
  unfold Server.receive at hs
  split at hs
  · split at hs <;> cases hs <;> rfl
  · split at hs
    · cases hs
      rfl
    · dsimp only at hs
      split at hs <;> cases hs <;> rfl
  · split at hs
    · cases hs
      rfl
    · split at hs <;> cases hs <;> rfl
  · cases hs

/-- By itself a task leaves its session alone, or makes one whose handle is not
made yet, or has written the last word. -/
theorem session_proceed
    (hs : Server.proceed digest s c conn = some (conn', e)) :
    conn'.session = conn.session ∨
      (∀ x, conn'.session = some x → x.made = false) ∨
      Complete conn'.trace := by
  obtain ⟨pc, trace, session⟩ := conn
  cases pc with
  | lookupService d nonce =>
      left
      simp only [Server.proceed] at hs
      split at hs
      · split at hs <;> cases hs <;> rfl
      · cases hs
  | lockControl d key service =>
      simp only [Server.proceed] at hs
      split at hs <;> cases hs
      refine Or.inr (Or.inl fun x hx => ?_)
      cases hx
      rfl
  | sendAck d key service =>
      cases hs
      exact Or.inr (Or.inr (Or.inl (List.mem_append_right _ (by simp))))
  | lockData key =>
      left
      simp only [Server.proceed] at hs
      split at hs
      · split at hs <;> cases hs <;> rfl
      · cases hs
  | handOver key owner =>
      left
      simp only [Server.proceed] at hs
      split at hs
      · cases hs
        rfl
      · split at hs <;> cases hs
        rfl
  | sendVisitorOk v =>
      cases hs
      refine Or.inr (Or.inl fun x hx => ?_)
      cases hx
      rfl
  | sendSessionKey v =>
      cases hs
      exact Or.inr (Or.inr (Or.inr
        ⟨v.sessionNonce, List.mem_append_right _ (by simp)⟩))
  | lockVisitor v =>
      left
      simp only [Server.proceed] at hs
      split at hs <;> cases hs
      rfl
  | readHello => cases hs
  | readAuth d nonce service => cases hs
  | readVisitorAuth nonce => cases hs
  | finished o => cases hs
  | _ =>
      cases hs
      exact Or.inl rfl

theorem made_localStep (hmade : ∀ x, conn.session = some x →
      x.made = true → Complete conn.trace)
    (hs : Server.localStep digest s c conn l = some (conn', e)) :
    ∀ x, conn'.session = some x → x.made = true → Complete conn'.trace := by
  obtain ⟨events, htrace, -⟩ := localStep_trace hs
  -- unless the session is touched, the events that were there are enough
  have hsame (h : conn'.session = conn.session) (x : Session)
      (hx : conn'.session = some x) (hxm : x.made = true) :
      Complete conn'.trace := by
    rw [htrace]
    exact (hmade x (h ▸ hx) hxm).append events
  cases l with
  | receive m nonce =>
      obtain ⟨conn₁, hrecv, heq⟩ := Option.map_eq_some_iff.mp hs
      cases heq
      exact hsame (session_receive hrecv)
  | proceed =>
      rcases session_proceed hs with h | hnew | hall
      · exact hsame h
      · intro x hx hxm
        rw [hnew x hx] at hxm
        cases hxm
      · exact fun _ _ _ => hall
  | abort =>
      obtain ⟨conn₁, habort, heq⟩ := Option.map_eq_some_iff.mp hs
      cases heq
      unfold abort at habort
      split at habort <;> cases habort
      exact hsame rfl
  | confirm =>
      obtain ⟨x, hx, heq⟩ := Option.map_eq_some_iff.mp hs
      cases heq
      intro y hy hym
      cases hy
      exact hmade x hx hym
  | command =>
      obtain ⟨pc, trace, session⟩ := conn
      simp only [Server.localStep] at hs
      split at hs
      · cases hs
        exact fun y hy hym => hmade _ rfl rfl
      · cases hs

theorem scripted_init (config : ServerConfig) :
    (init digest config).Scripted digest :=
  fun _ _ hconn => by cases hconn

/-- **Step lemma.** -/
theorem State.Scripted.step {t : State} {a : Action} (h : s.Scripted digest)
    (hs : Server.step digest s a = some t) : t.Scripted digest := by
  intro c conn hconn
  rw [config_step hs]
  rcases lookup_of_step hs hconn with
    hold | ⟨-, -, rfl⟩ | ⟨l, conn₀, e, -, hold, hlocal, -⟩
  · exact h c conn hold
  · exact ⟨.readHello, fun x hx => by cases hx⟩
  · obtain ⟨hscript, hmade⟩ := h c conn₀ hold
    exact ⟨hscript.localStep hlocal, made_localStep hmade hlocal⟩

end

end Rathole.Server
