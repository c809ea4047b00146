import Rathole.Tunnel.Handshake

/-!
# What the server says of a request

No handshake derails between a client and the server. Whatever the client
reads is what it waits for, or it is the refusal of the client's own request,
for the reason that the server says.
-/

namespace Rathole.Tunnel

open Server (ConnId Item)
open ControlTask (isVisitorMode helloSend tokenDigest authSend)

section

variable (digest : Bytes → Digest) (config : ServerConfig)
  (service : ClientServiceConfig)

/-- A refusal of what the client has sent, and what the server had found. -/
inductive Refusal (conn : Server.Conn) (nonce : Digest) : Item → Prop where
  | noService (hmode : isVisitorMode service = false)
      (htrace : conn.trace = Server.lookupEvents
          (serviceDigest digest service.user service.name) nonce ++
        [.sent (.ack .serviceNotExist)]) :
      Refusal conn nonce (.frame (.ack .serviceNotExist))
  | badToken (found : ServerServiceConfig)
      (hmode : isVisitorMode service = false)
      (htrace : conn.trace = Server.controlEvents
          (serviceDigest digest service.user service.name) nonce found
          (digest (Server.challenge service.token nonce)) ++
        [.sent (.ack .authFailed)])
      (hkey : digest (Server.challenge found.token nonce) ≠
        digest (Server.challenge service.token nonce)) :
      Refusal conn nonce (.frame (.ack .authFailed))
  | visitor (w sessionNonce : Digest) (auth : VisitorAuth) (ack : VisitorAck)
      (e : String) (hmode : isVisitorMode service = true)
      (hauth : .visitorAuth auth = authSend digest service nonce)
      (hcheck : Server.checkVisitor digest config nonce auth sessionNonce =
        .error (ack, e))
      (htrace : conn.trace = Server.challengeEvents w nonce ++
        [.sentRaw nonce, .received (.visitorAuth auth),
          .sent (.visitorAck ack)]) :
      Refusal conn nonce (.frame (.visitorAck ack))

/-- What the client waits for. -/
inductive Expected : ControlTask.Pc → Item → Prop where
  | nonce (nonce : Digest) : Expected .nonce (greeting service nonce)
  | ack (nonce : Digest) (hmode : isVisitorMode service = false) :
      Expected (.ack nonce) (.frame (.ack .ok))
  | visitorAck (nonce : Digest) (hmode : isVisitorMode service = true) :
      Expected (.ack nonce) (.frame (.visitorAck .ok))
  | key (key : Digest) : Expected .key (.frame (.auth key))
  | command (key : Digest) (cmd : ControlChannelCmd) :
      Expected (.forward key) (.frame (.control cmd))

/-- What the server says to the client after its greeting. -/
inductive Answer (conn : Server.Conn) (nonce : Digest) : List Item → Prop where
  | none : Answer conn nonce []
  | admitted (hmode : isVisitorMode service = false) :
      Answer conn nonce [.frame (.ack .ok)]
  | welcomed (hmode : isVisitorMode service = true) :
      Answer conn nonce [.frame (.visitorAck .ok)]
  | keyed (key : Digest) (hmode : isVisitorMode service = true) :
      Answer conn nonce [.frame (.visitorAck .ok), .frame (.auth key)]
  | refused {item : Item} (h : Refusal digest config service conn nonce item) :
      Answer conn nonce [item]

end

section

variable {digest : Bytes → Digest} {config : ServerConfig}
  {service : ClientServiceConfig} {remoteAddr : String}
  {heartbeatTimeout : UInt64} {s s' : State} {c : ConnId}

theorem Played.head {pc : ControlTask.Pc} {up : List PacketMessage}
    {down : List Item} (h : Played digest service pc up down)
    {m : PacketMessage} (hm : up.head? = some m) :
    ∃ pad, m = .hello (helloSend digest service pad) := by
  cases h with
  | hello => cases hm
  | _ =>
      cases hm
      exact ⟨_, rfl⟩

theorem visitorMode_eq {w pad : Digest} {version : ProtocolVersion}
    (h : PacketMessage.hello (.visitorHello version w) =
      .hello (helloSend digest service pad)) :
    isVisitorMode service = true := by
  by_contra hcontrol
  unfold helloSend at h
  rw [if_neg hcontrol] at h
  cases h

theorem controlMode_eq {d pad : Digest} {version : ProtocolVersion}
    (h : PacketMessage.hello (.controlChannelHello version d) =
      .hello (helloSend digest service pad)) :
    isVisitorMode service = false ∧
      d = serviceDigest digest service.user service.name := by
  have hmode : isVisitorMode service = false := by
    by_contra hvisitor
    unfold helloSend at h
    rw [if_pos (Bool.not_eq_false _ ▸ hvisitor)] at h
    cases h
  unfold helloSend at h
  rw [hmode] at h
  cases h
  exact ⟨hmode, rfl⟩

theorem greeting_control (hmode : isVisitorMode service = false)
    (nonce : Digest) : greeting service nonce =
      .frame (.hello (.controlChannelHello currentProtoVersion nonce)) :=
  if_neg (by rw [hmode]; exact Bool.false_ne_true)

theorem greeting_visitor (hmode : isVisitorMode service = true)
    (nonce : Digest) : greeting service nonce = .raw nonce :=
  if_pos hmode

theorem greeting_inj {n nonce : Digest}
    (h : greeting service n = greeting service nonce) : n = nonce := by
  unfold greeting at h
  split at h <;> cases h <;> rfl

theorem authSend_control (hmode : isVisitorMode service = false)
    (nonce : Digest) : authSend digest service nonce =
      .auth (digest (Server.challenge service.token nonce)) :=
  if_neg (by rw [hmode]; exact Bool.false_ne_true)

/-- The server has heard the client's hello first. -/
theorem Link.heard_head (h : Link digest service s c) {conn : Server.Conn}
    (hconn : s.server.conns.lookup c = some conn) {m : PacketMessage}
    (hm : (Server.heard conn.trace).head? = some m) :
    ∃ pad, m = .hello (helloSend digest service pad) := by
  obtain ⟨rest, hsent⟩ := h.heard_of_sent
  rw [heardOn_eq hconn] at hsent
  refine h.played.head ?_
  rw [← hsent]
  generalize hheard : Server.heard conn.trace = ms at hm
  cases ms with
  | nil => cases hm
  | cons m' ms => exact hm

/-- The two frames that a server has heard when it refuses one. -/
theorem Link.heard_both (h : Link digest service s c) {conn : Server.Conn}
    (hconn : s.server.conns.lookup c = some conn) {m₁ m₂ : PacketMessage}
    {nonce : Digest} {rest : List Item}
    (hheard : Server.heard conn.trace = [m₁, m₂])
    (hsaid : Server.said conn.trace = greeting service nonce :: rest) :
    m₂ = authSend digest service nonce := by
  have hheardOn : heardOn s.server c = [m₁, m₂] := by
    rw [heardOn_eq hconn, hheard]
  obtain ⟨pad, nonce', rest', -, hauth, -, hgreet, -⟩ := h.answered hheardOn
  rw [saidOn_eq hconn, hsaid] at hgreet
  have hsame : greeting service nonce' = greeting service nonce := by
    simpa using hgreet
  rw [← greeting_inj hsame]
  exact hauth

/-- **What a client is told.** -/
theorem Link.told (h : Link digest service s c)
    (hscript : s.server.Scripted digest) (hconfig : s.server.config = config)
    (hne : saidOn s.server c ≠ []) :
    ∃ conn nonce rest, s.server.conns.lookup c = some conn ∧
      saidOn s.server c = greeting service nonce :: rest ∧
      Answer digest config service conn nonce rest := by
  cases hconn : s.server.conns.lookup c with
  | none => exact absurd (on_none hconn).1 hne
  | some conn =>
      have hspoken := (hscript c conn hconn).1.spoken
      rw [saidOn_eq hconn] at hne ⊢
      rw [hconfig] at hspoken
      generalize htrace : conn.trace = trace at hspoken hne ⊢
      generalize hpc : conn.pc = pc at hspoken
      cases hspoken with
      | silent hsaid => exact absurd hsaid hne
      | greeted d nonce hheard hsaid =>
          rw [← htrace] at hheard
          obtain ⟨pad, hhello⟩ := h.heard_head hconn hheard
          obtain ⟨hmode, -⟩ := controlMode_eq hhello
          refine ⟨conn, nonce, [], rfl, ?_, .none⟩
          rw [hsaid, greeting_control hmode]
      | denied d nonce ack hheard hack hsaid hwhy =>
          rw [← htrace] at hheard
          obtain ⟨pad, hhello⟩ := h.heard_head hconn hheard
          obtain ⟨hmode, rfl⟩ := controlMode_eq hhello
          have hgreet : Server.said trace =
              [greeting service nonce, .frame (.ack ack)] := by
            rw [hsaid, greeting_control hmode]
          refine ⟨conn, nonce, _, rfl, hgreet, .refused ?_⟩
          rcases hwhy with ⟨rfl, hwhy⟩ | ⟨found, k, rfl, hkey, hwhy⟩
          · exact .noService hmode (htrace.trans hwhy)
          · have hboth : PacketMessage.auth k = authSend digest service nonce :=
              h.heard_both hconn (by rw [htrace, hwhy]; rfl)
                (by rw [htrace, hgreet])
            rw [authSend_control hmode] at hboth
            cases hboth
            exact .badToken found hmode (htrace.trans hwhy) hkey
      | admitted d nonce found =>
          obtain ⟨hmode, -⟩ := h.admitted hconn htrace hpc
          refine ⟨conn, nonce, _, rfl, ?_, .admitted hmode⟩
          rw [Server.said_admitted, greeting_control hmode]
      | challenged w nonce hheard hsaid =>
          rw [← htrace] at hheard
          obtain ⟨pad, hhello⟩ := h.heard_head hconn hheard
          refine ⟨conn, nonce, [], rfl, ?_, .none⟩
          rw [hsaid, greeting_visitor (visitorMode_eq hhello)]
      | refused w nonce ack hheard hack hsaid hwhy =>
          rw [← htrace] at hheard
          obtain ⟨pad, hhello⟩ := h.heard_head hconn hheard
          have hmode := visitorMode_eq hhello
          have hgreet : Server.said trace =
              [greeting service nonce, .frame (.visitorAck ack)] := by
            rw [hsaid, greeting_visitor hmode]
          refine ⟨conn, nonce, _, rfl, hgreet, .refused ?_⟩
          obtain ⟨auth, sessionNonce, e, hcheck, hwhy⟩ := hwhy
          have hboth : PacketMessage.visitorAuth auth =
              authSend digest service nonce :=
            h.heard_both hconn (by rw [htrace, hwhy]; rfl)
              (by rw [htrace, hgreet])
          exact .visitor w sessionNonce auth ack e hmode hboth hcheck
            (htrace.trans hwhy)
      | welcomed w nonce hheard hsaid =>
          rw [← htrace] at hheard
          obtain ⟨pad, hhello⟩ := h.heard_head hconn hheard
          have hmode := visitorMode_eq hhello
          refine ⟨conn, nonce, _, rfl, ?_, .welcomed hmode⟩
          rw [hsaid, greeting_visitor hmode]
      | keyed w nonce v hcheck hp =>
          rw [← hpc] at hp
          obtain ⟨hmode, -⟩ := h.keyed hconn hcheck htrace hp
          refine ⟨conn, nonce, _, rfl, ?_, .keyed v.sessionNonce hmode⟩
          rw [Server.said_keyed, greeting_visitor hmode]

/-! ## What the client reads -/

theorem CompleteOn.item {server : Server.State} (h : CompleteOn server c) :
    Item.frame (.ack .ok) ∈ saidOn server c ∨
      ∃ key, Item.frame (.auth key) ∈ saidOn server c := by
  obtain ⟨conn, hconn, hack | ⟨key, hkey⟩⟩ := h
  · rw [saidOn_eq hconn]
    exact Or.inl (Server.item_of_mem hack)
  · rw [saidOn_eq hconn]
    exact Or.inr ⟨key, Server.item_of_mem hkey⟩

theorem greeting_not_last (service : ClientServiceConfig) (nonce : Digest) :
    greeting service nonce ≠ .frame (.ack .ok) ∧
      ∀ key, greeting service nonce ≠ .frame (.auth key) := by
  unfold greeting
  split
  · exact ⟨Item.noConfusion, fun _ => Item.noConfusion⟩
  · exact ⟨fun h => (by cases h), fun _ h => (by cases h)⟩

theorem Refusal.ne_ok {conn : Server.Conn} {nonce : Digest} {item : Item}
    (h : Refusal digest config service conn nonce item) :
    item ≠ .frame (.ack .ok) ∧ item ≠ .frame (.visitorAck .ok) ∧
      ∀ key, item ≠ .frame (.auth key) := by
  cases h with
  | noService => simp
  | badToken => simp
  | visitor w sessionNonce auth ack e hmode hauth hcheck =>
      simpa using Server.checkVisitor_error hcheck

/-- A server that has not had its last word sends no commands. -/
theorem Link.said_all (h : Link digest service s c)
    (hlast : ¬ CompleteOn s.server c) {item : Item}
    (hnext : s.down.next? = some item) :
    s.down.received ++ [item] <+: saidOn s.server c := by
  obtain ⟨cmds, hsaid, rfl | hall⟩ := h.said
  · rw [commands, List.map_nil, List.append_nil] at hsaid
    rw [← hsaid]
    exact h.down.receive hnext
  · exact absurd hall hlast

/-- A client that has read everything else reads a command. -/
theorem Link.next_command (h : Link digest service s c) {item : Item}
    (hnext : s.down.next? = some item) {cmds : List ControlChannelCmd}
    (hread : s.down.received = saidOn s.server c ++ commands cmds) :
    ∃ cmd, item = .frame (.control cmd) := by
  obtain ⟨cmds', hsaid, -⟩ := h.said
  have hpre : s.down.received ++ [item] <+:
      saidOn s.server c ++ commands cmds' := by
    rw [← hsaid]
    exact h.down.receive hnext
  rw [hread, List.append_assoc, List.prefix_append_right_inj] at hpre
  have hmem : item ∈ commands cmds' := hpre.subset (by simp)
  obtain ⟨cmd, -, rfl⟩ := List.mem_map.mp hmem
  exact ⟨cmd, rfl⟩

theorem not_read {t t' : ControlTask.State} {item : Item}
    (hpc : t.pc = .hello ∨ ∃ nonce, t.pc = .auth nonce) :
    ControlTask.step digest service remoteAddr heartbeatTimeout t
      (readAction item) ≠ some t' := by
  rcases hpc with hpc | ⟨nonce, hpc⟩ <;>
    cases item <;>
    simp [readAction, ControlTask.step, ControlTask.stepRead, hpc]

/-- The item `item` comes after those in `down`, from a server that has said
`rest` after its greeting: of that, as long as the last word is not there, and
a command after it. -/
structure Coming (service : ClientServiceConfig) (nonce : Digest)
    (rest down : List Item) (item : Item) : Prop where
  next : ∃ cmds, down ++ [item] <+:
    greeting service nonce :: (rest ++ commands cmds)
  unfinished : (∀ i ∈ rest, i ≠ .frame (.ack .ok) ∧
      ∀ key, i ≠ .frame (.auth key)) →
    down ++ [item] <+: greeting service nonce :: rest
  command : ∀ cmds, down = greeting service nonce :: rest ++ commands cmds →
    ∃ cmd, item = .frame (.control cmd)

theorem Link.coming (h : Link digest service s c)
    (hscript : s.server.Scripted digest) (hconfig : s.server.config = config)
    {item : Item} (hnext : s.down.next? = some item) :
    ∃ conn nonce rest, s.server.conns.lookup c = some conn ∧
      Answer digest config service conn nonce rest ∧
      Coming service nonce rest s.down.received item := by
  have hne : saidOn s.server c ≠ [] := by
    intro hnil
    have hlast : ¬ CompleteOn s.server c := by
      intro hall
      rcases hall.item with hack | ⟨key, hkey⟩
      · rw [hnil] at hack
        cases hack
      · rw [hnil] at hkey
        cases hkey
    have hpre := h.said_all hlast hnext
    rw [hnil, List.prefix_nil] at hpre
    simp at hpre
  obtain ⟨conn, nonce, rest, hconn, hsaid, hans⟩ :=
    h.told hscript hconfig hne
  obtain ⟨cmds, hsent, -⟩ := h.said
  refine ⟨conn, nonce, rest, hconn, hans, ⟨cmds, ?_⟩, ?_, ?_⟩
  · rw [← List.cons_append, ← hsaid, ← hsent]
    exact h.down.receive hnext
  · intro hrest
    rw [← hsaid]
    refine h.said_all ?_ hnext
    intro hall
    obtain ⟨hgack, hgkey⟩ := greeting_not_last service nonce
    rcases hall.item with hack | ⟨key, hkey⟩
    · rw [hsaid] at hack
      rcases List.mem_cons.mp hack with heq | hmem
      · exact hgack heq.symm
      · exact (hrest _ hmem).1 rfl
    · rw [hsaid] at hkey
      rcases List.mem_cons.mp hkey with heq | hmem
      · exact hgkey key heq.symm
      · exact (hrest _ hmem).2 key rfl
  · intro cmds' hread
    exact h.next_command hnext (by rw [hread, hsaid])

section Points

variable {conn : Server.Conn} {nonce n : Digest} {rest : List Item}
  {item : Item}

theorem Coming.at_nonce (h : Coming service nonce rest [] item) :
    item = greeting service nonce := by
  obtain ⟨cmds, hpre⟩ := h.next
  exact (List.cons_prefix_cons.mp hpre).1

/-- A client that has answered the greeting reads the verdict. -/
theorem Coming.at_ack (h : Coming service nonce rest [greeting service n] item)
    (hans : Answer digest config service conn nonce rest) :
    Expected service (.ack n) item ∨
      Refusal digest config service conn n item := by
  obtain ⟨cmds, hpre⟩ := h.next
  obtain ⟨hgreet, hitem⟩ := List.cons_prefix_cons.mp hpre
  obtain rfl := greeting_inj hgreet
  cases hans with
  | none => simpa using (h.unfinished (by simp)).length_le
  | admitted hmode =>
      obtain ⟨rfl, -⟩ := List.cons_prefix_cons.mp hitem
      exact Or.inl (.ack n hmode)
  | welcomed hmode =>
      obtain ⟨rfl, -⟩ := List.cons_prefix_cons.mp hitem
      exact Or.inl (.visitorAck n hmode)
  | keyed key hmode =>
      obtain ⟨rfl, -⟩ := List.cons_prefix_cons.mp hitem
      exact Or.inl (.visitorAck n hmode)
  | refused hrefused =>
      obtain ⟨rfl, -⟩ := List.cons_prefix_cons.mp hitem
      exact Or.inr hrefused

/-- A visitor that has been let in reads its key. -/
theorem Coming.at_key
    (h : Coming service nonce rest
      [greeting service n, .frame (.visitorAck .ok)] item)
    (hans : Answer digest config service conn nonce rest)
    (hmode : isVisitorMode service = true) : Expected service .key item := by
  obtain ⟨cmds, hpre⟩ := h.next
  obtain ⟨-, hitems⟩ := List.cons_prefix_cons.mp hpre
  cases hans with
  | none => simpa using (h.unfinished (by simp)).length_le
  | admitted hcontrol => simp [hmode] at hcontrol
  | welcomed => simpa using (h.unfinished (by simp)).length_le
  | keyed key =>
      obtain ⟨-, hitem⟩ := List.cons_prefix_cons.mp hitems
      obtain ⟨rfl, -⟩ := List.cons_prefix_cons.mp hitem
      exact .key key
  | refused hrefused =>
      obtain ⟨heq, -⟩ := List.cons_prefix_cons.mp hitems
      exact absurd heq.symm hrefused.ne_ok.2.1

/-- An established client reads commands. -/
theorem Coming.at_control {cmds : List ControlChannelCmd}
    (h : Coming service nonce rest
      ([greeting service n, .frame (.ack .ok)] ++ commands cmds) item)
    (hans : Answer digest config service conn nonce rest)
    (hmode : isVisitorMode service = false) :
    ∃ cmd, item = .frame (.control cmd) := by
  obtain ⟨cmds', hpre⟩ := h.next
  obtain ⟨hgreet, hitems⟩ := List.cons_prefix_cons.mp hpre
  obtain rfl := greeting_inj hgreet
  cases hans with
  | none => simpa using (h.unfinished (by simp)).length_le
  | admitted => exact h.command cmds rfl
  | welcomed hvisitor => simp [hmode] at hvisitor
  | keyed key hvisitor => simp [hmode] at hvisitor
  | refused hrefused =>
      obtain ⟨heq, -⟩ := List.cons_prefix_cons.mp hitems
      exact absurd heq.symm hrefused.ne_ok.1

theorem Coming.at_visitor {cmds : List ControlChannelCmd} {key : Digest}
    (h : Coming service nonce rest ([greeting service n,
      .frame (.visitorAck .ok), .frame (.auth key)] ++ commands cmds) item)
    (hans : Answer digest config service conn nonce rest)
    (hmode : isVisitorMode service = true) :
    ∃ cmd, item = .frame (.control cmd) := by
  obtain ⟨cmds', hpre⟩ := h.next
  obtain ⟨hgreet, hitems⟩ := List.cons_prefix_cons.mp hpre
  obtain rfl := greeting_inj hgreet
  cases hans with
  | none => simpa using (h.unfinished (by simp)).length_le
  | admitted hcontrol => simp [hmode] at hcontrol
  | welcomed => simpa using (h.unfinished (by simp)).length_le
  | keyed key' =>
      obtain ⟨-, hkeys⟩ := List.cons_prefix_cons.mp hitems
      obtain ⟨heq, -⟩ := List.cons_prefix_cons.mp hkeys
      exact h.command cmds (by rw [heq])
  | refused hrefused =>
      obtain ⟨heq, -⟩ := List.cons_prefix_cons.mp hitems
      exact absurd heq.symm hrefused.ne_ok.2.1

end Points

/-- What is read next is expected, or refuses the client's request. -/
theorem Link.next (h : Link digest service s c)
    (hscript : s.server.Scripted digest) (hconfig : s.server.config = config)
    {item : Item} (hnext : s.down.next? = some item) {t : ControlTask.State}
    (hs : ControlTask.step digest service remoteAddr heartbeatTimeout s.client
      (readAction item) = some t) :
    Expected service s.client.pc item ∨
    ∃ conn nonce, s.server.conns.lookup c = some conn ∧
      s.client.pc = .ack nonce ∧
      Refusal digest config service conn nonce item := by
  obtain ⟨conn, nonce, rest, hconn, hans, hcoming⟩ :=
    h.coming hscript hconfig hnext
  have hplayed := h.played
  generalize hpc : s.client.pc = pc at hplayed
  generalize s.up.sent = up at hplayed
  generalize s.down.received = down at hplayed hcoming
  cases hplayed with
  | hello => exact absurd hs (not_read (Or.inl hpc))
  | auth pad n => exact absurd hs (not_read (Or.inr ⟨n, hpc⟩))
  | nonce pad =>
      left
      rw [hcoming.at_nonce]
      exact .nonce nonce
  | ack pad n =>
      exact (hcoming.at_ack hans).imp id (fun h => ⟨conn, n, hconn, rfl, h⟩)
  | key pad n hmode => exact Or.inl (hcoming.at_key hans hmode)
  | control pad n cmds hmode =>
      obtain ⟨cmd, rfl⟩ := hcoming.at_control hans hmode
      exact Or.inl (.command _ cmd)
  | visitor pad n key cmds hmode =>
      obtain ⟨cmd, rfl⟩ := hcoming.at_visitor hans hmode
      exact Or.inl (.command key cmd)

/-- What is expected keeps the client on its connection. -/
theorem Expected.online {t t' : ControlTask.State} {item : Item}
    (h : Expected service t.pc item)
    (hs : ControlTask.step digest service remoteAddr heartbeatTimeout t
      (readAction item) = some t') : t'.pc.online = true := by
  obtain ⟨pc, signal, sent, chans⟩ := t
  dsimp only at h
  cases h with
  | nonce n =>
      cases hmode : isVisitorMode service with
      | true =>
          rw [greeting_visitor hmode] at hs
          simp only [readAction, ControlTask.step, hmode, and_self,
            if_true] at hs
          cases hs
          rfl
      | false =>
          rw [greeting_control hmode] at hs
          simp only [readAction, ControlTask.step, ControlTask.stepRead, hmode,
            Bool.false_eq_true, if_false] at hs
          cases hs
          rfl
  | ack n hmode =>
      simp only [readAction, ControlTask.step, ControlTask.stepRead,
        Except.bind, ControlTask.readAcked, hmode, Bool.false_eq_true,
        if_false, readAck] at hs
      cases hs
      rfl
  | visitorAck n hmode =>
      simp only [readAction, ControlTask.step, ControlTask.stepRead,
        Except.bind, ControlTask.readAcked, hmode, if_true,
        readVisitorAck] at hs
      cases hs
      rfl
  | key key =>
      cases hs
      rfl
  | command key cmd =>
      cases cmd <;> cases hs <;> rfl

end

/-! ## The main result -/

/-- **A handshake does not derail.** What a client reads from the server keeps
it on its connection, unless it is the server's refusal of what this very
client has asked for: the service was not found, the token was another one, or
the visitor did not pass the check. -/
theorem reads_as_expected (digest : Bytes → Digest) (config : ServerConfig)
    (service : ClientServiceConfig) (remoteAddr : String)
    (heartbeatTimeout : UInt64) (as : List Action) (s s' : State)
    (hrun : Runs.Run (step digest service remoteAddr heartbeatTimeout)
      (init digest config) as s)
    (hs : step digest service remoteAddr heartbeatTimeout s .read = some s') :
    s'.client.pc.online = true ∨
    ∃ c conn nonce item, s.link = some c ∧
      s.server.conns.lookup c = some conn ∧ s.client.pc = .ack nonce ∧
      s.down.next? = some item ∧
      Refusal digest config service conn nonce item := by
  have hinv : Inv digest config service s :=
    Runs.run_preserves (fun _ _ _ h hs => h.step hs) (inv_init config) hrun
  simp only [step] at hs
  split at hs
  · rename_i item hnext
    obtain ⟨client, hclient, rfl⟩ := Option.map_eq_some_iff.mp hs
    obtain ⟨c, hc⟩ := Option.isSome_iff_exists.mp
      (hinv.online (online_of_read hclient))
    rcases (hinv.link c hc).next hinv.scripted hinv.config hnext hclient with
      hexpected | ⟨conn, nonce, hconn, hpc, hrefused⟩
    · exact Or.inl (hexpected.online hclient)
    · exact Or.inr ⟨c, conn, nonce, item, hc, hconn, hpc, hnext, hrefused⟩
  · cases hs

/-- A client with another token. -/
def strangerService : ClientServiceConfig :=
  { webService with token := some "mallory-token" }

/-- It gets as far as the server's answer. -/
def askAsStranger : List Action :=
  [.client (.resolved (.ok ())), .connect 0,
    .client (.hello Server.zeros (.ok ())), .server (.accept 0),
    .deliver Server.zeros, .server (.conn 0 .proceed),
    .server (.conn 0 .proceed), .read, .client (.auth (.ok ())),
    .deliver Server.zeros, .server (.conn 0 .proceed)]

theorem reads_as_expected_stranger : ∃ s conn nonce,
    Runs.Run (step Server.sampleDigest strangerService "127.0.0.1:2333" 40)
      (init Server.sampleDigest Server.sampleConfig) askAsStranger s ∧
    s.server.conns.lookup 0 = some conn ∧
    Refusal Server.sampleDigest Server.sampleConfig strangerService conn nonce
      (.frame (.ack .authFailed)) := by
  obtain ⟨s, s', hrun, hread, hoff, hlink, hnext⟩ : ∃ s s',
      Runs.Run (step Server.sampleDigest strangerService "127.0.0.1:2333" 40)
        (init Server.sampleDigest Server.sampleConfig) askAsStranger s ∧
      step Server.sampleDigest strangerService "127.0.0.1:2333" 40 s .read =
        some s' ∧
      s'.client.pc.online = false ∧ s.link = some 0 ∧
      s.down.next? = some (.frame (.ack .authFailed)) :=
    ⟨_, _, rfl, rfl, rfl, rfl, rfl⟩
  rcases reads_as_expected Server.sampleDigest Server.sampleConfig
      strangerService "127.0.0.1:2333" 40 askAsStranger s s' hrun hread with
    hon | ⟨c, conn, nonce, item, hc, hconn, -, hitem, hrefused⟩
  · rw [hoff] at hon
    cases hon
  · cases hlink.symm.trans hc
    cases hnext.symm.trans hitem
    exact ⟨s, conn, nonce, hrun, hconn, hrefused⟩

end Rathole.Tunnel
