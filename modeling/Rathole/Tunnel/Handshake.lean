import Rathole.Client.ControlChannel
import Rathole.Lib.Channel
import Rathole.Server.Script

/-!
# A client and the server

The task behind one handle of a client, and the server with all its other
connections. The two share a connection for each run of the task: a channel
for the frames of the client, a channel for those of the server, and a fresh
connection id. Whatever else connects to the server may send it anything, at
any time, and so may a connection that the client has given up.

The two sides agree on how the handshake went. A client that takes its session
for established has the session key that the server gave the very same
connection, under the service it asked for, and the token was right.
-/

namespace Rathole.ControlTask

/-- A run of the task has a connection. -/
def Pc.online : Pc → Bool
  | .hello | .nonce | .auth _ | .ack _ | .key | .forward _ => true
  | _ => false

/-- What the task learns from its connection. -/
def Action.remote : Action → Bool
  | .connected (.ok ()) => true
  | .read (.ok _) => true
  | .challenge (.ok _) => true
  | _ => false

end Rathole.ControlTask

namespace Rathole.Tunnel

open Server (ConnId Nonce Item said heard Event Complete Script Spoken)
open ControlTask (isVisitorMode helloSend tokenDigest authSend)

structure State where
  server : Server.State
  client : ControlTask.State
  /-- The connection of the client's run. -/
  link : Option ConnId
  up : Channel PacketMessage
  down : Channel Item

inductive Action where
  /-- The server, or whoever else talks to it. -/
  | server (a : Server.Action)
  /-- The task behind the client's handle on the server sends a command. -/
  | command (cmd : ControlChannelCmd)
  | connect (c : ConnId)
  | client (a : ControlTask.Action)
  /-- A frame of the client reaches the server; `nonce` is what the server's
  generator gives if it is asked. -/
  | deliver (nonce : Nonce)
  | read

/-- What was written on a connection, and what was read from it. -/
def saidOn (server : Server.State) (c : ConnId) : List Item :=
  (server.conns.lookup c).elim [] (fun conn => said conn.trace)

def heardOn (server : Server.State) (c : ConnId) : List PacketMessage :=
  (server.conns.lookup c).elim [] (fun conn => heard conn.trace)

/-- `ControlChannelHandle::new` has run. -/
def madeOn (server : Server.State) (c : ConnId) : Bool :=
  (server.conns.lookup c).any (fun conn => conn.session.any Server.Session.made)

/-- The message that a step of the server reads from the connection `c`. -/
def arrives (c : ConnId) : Server.Action → Option PacketMessage
  | .conn c' (.receive m _) => if c' = c then some m else none
  | _ => none

namespace State

variable (s : State)

/-- The server has moved; what it has written is on its way. -/
def serve (server : Server.State) : State :=
  { s with
    server := server
    down := s.link.elim s.down (fun c =>
      s.down.send ((saidOn server c).drop (saidOn s.server c).length)) }

/-- The client has moved; what it has written is on its way. -/
def play (client : ControlTask.State) : State :=
  { s with
    client := client
    link := if client.pc.online then s.link else none
    up := s.up.send (client.sent.drop s.client.sent.length) }

end State

section

variable (digest : Bytes → Digest) (service : ClientServiceConfig)
  (remoteAddr : String) (heartbeatTimeout : UInt64)

/-- How the client's task reads an item. -/
def readAction : Item → ControlTask.Action
  | .frame m => .read (.ok m)
  | .raw nonce => .challenge (.ok nonce)

def step (s : State) : Action → Option State
  | .server a =>
      -- only the client writes on its connection
      if s.link.any (fun c => (arrives c a).isSome) then none
      else (Server.step digest s.server a).map s.serve
  | .command cmd =>
      match s.link with
      | some c =>
          if madeOn s.server c then
            some { s with down := s.down.send [.frame (.control cmd)] }
          else none
      | none => none
  | .connect c =>
      if s.server.conns.lookup c = none then
        (ControlTask.step digest service remoteAddr heartbeatTimeout s.client
          (.connected (.ok ()))).map (fun client =>
            { s with
              client := client, link := some c
              up := .empty, down := .empty })
      else none
  | .client a =>
      if a.remote then none
      else (ControlTask.step digest service remoteAddr heartbeatTimeout
        s.client a).map s.play
  | .deliver nonce =>
      match s.link, s.up.next? with
      | some c, some m =>
          (Server.step digest s.server (.conn c (.receive m nonce))).map
            (fun server => { s.serve server with up := s.up.receive m })
      | _, _ => none
  | .read =>
      match s.down.next? with
      | some item =>
          (ControlTask.step digest service remoteAddr heartbeatTimeout s.client
            (readAction item)).map (fun client =>
              { s.play client with down := s.down.receive item })
      | none => none

end

/-- The server as it starts, and the task of a new handle. -/
def init (digest : Bytes → Digest) (config : ServerConfig) : State where
  server := Server.init digest config
  client := ControlTask.init
  link := none
  up := .empty
  down := .empty

/-! ## The client's part -/

section

variable (digest : Bytes → Digest) (service : ClientServiceConfig)

/-- The first item that the client waits for. -/
def greeting (nonce : Digest) : Item :=
  if isVisitorMode service then .raw nonce
  else .frame (.hello (.controlChannelHello currentProtoVersion nonce))

def commands (cmds : List ControlChannelCmd) : List Item :=
  cmds.map (fun cmd => .frame (.control cmd))

/-- What the client has written and read on its connection by the time it
stands at a given point. -/
inductive Played : ControlTask.Pc → List PacketMessage → List Item → Prop where
  | hello : Played .hello [] []
  | nonce (pad : Digest) :
      Played .nonce [.hello (helloSend digest service pad)] []
  | auth (pad nonce : Digest) :
      Played (.auth nonce) [.hello (helloSend digest service pad)]
        [greeting service nonce]
  | ack (pad nonce : Digest) :
      Played (.ack nonce) [.hello (helloSend digest service pad),
        authSend digest service nonce] [greeting service nonce]
  | key (pad nonce : Digest) (hmode : isVisitorMode service = true) :
      Played .key [.hello (helloSend digest service pad),
        authSend digest service nonce]
        [greeting service nonce, .frame (.visitorAck .ok)]
  | control (pad nonce : Digest) (cmds : List ControlChannelCmd)
      (hmode : isVisitorMode service = false) :
      Played (.forward (tokenDigest digest service nonce))
        [.hello (helloSend digest service pad), authSend digest service nonce]
        ([greeting service nonce, .frame (.ack .ok)] ++ commands cmds)
  | visitor (pad nonce key : Digest) (cmds : List ControlChannelCmd)
      (hmode : isVisitorMode service = true) :
      Played (.forward key)
        [.hello (helloSend digest service pad), authSend digest service nonce]
        ([greeting service nonce, .frame (.visitorAck .ok),
          .frame (.auth key)] ++ commands cmds)

end

section

variable {digest : Bytes → Digest} {service : ClientServiceConfig}
  {remoteAddr : String} {heartbeatTimeout : UInt64}

theorem readAck_eq_ok {m : PacketMessage} {a : Ack} (h : readAck m = .ok a) :
    m = .ack a := by
  unfold readAck at h
  split at h <;> cases h
  rfl

theorem readVisitorAck_eq_ok {m : PacketMessage} {a : VisitorAck}
    (h : readVisitorAck m = .ok a) : m = .visitorAck a := by
  unfold readVisitorAck at h
  split at h <;> cases h
  rfl

theorem readControlCmd_eq_ok {m : PacketMessage} {cmd : ControlChannelCmd}
    (h : readControlCmd m = .ok cmd) : m = .control cmd := by
  unfold readControlCmd at h
  split at h <;> cases h
  rfl

theorem readNonce_eq_ok {m : PacketMessage} {nonce : Digest}
    (h : ControlTask.readNonce m = .ok nonce) :
    m = .hello (.controlChannelHello currentProtoVersion nonce) := by
  unfold ControlTask.readNonce at h
  split at h
  · rename_i v d hread
    cases h
    obtain ⟨rfl, hversion⟩ := Server.readHello_eq_ok hread
    change v = currentProtoVersion at hversion
    rw [hversion]
  · cases h
  · cases h

theorem readAcked_eq_ok {m : PacketMessage} {nonce : Digest}
    {pc : ControlTask.Pc}
    (h : ControlTask.readAcked digest service nonce m = .ok pc) :
    (isVisitorMode service = true ∧ m = .visitorAck .ok ∧ pc = .key) ∨
      (isVisitorMode service = false ∧ m = .ack .ok ∧
        pc = .forward (tokenDigest digest service nonce)) := by
  unfold ControlTask.readAcked at h
  split at h
  · rename_i hmode
    split at h
    · rename_i hack
      cases h
      exact Or.inl ⟨hmode, readVisitorAck_eq_ok hack, rfl⟩
    all_goals cases h
  · rename_i hmode
    split at h
    · rename_i hack
      cases h
      exact Or.inr ⟨Bool.not_eq_true _ ▸ hmode, readAck_eq_ok hack, rfl⟩
    all_goals cases h

theorem commands_snoc (cmds : List ControlChannelCmd)
    (cmd : ControlChannelCmd) :
    commands (cmds ++ [cmd]) = commands cmds ++ [.frame (.control cmd)] :=
  List.map_append

variable {t t' : ControlTask.State} {up : List PacketMessage}
  {down : List Item}

/-- A client without a connection reads nothing. -/
theorem online_of_read {item : Item}
    (hs : ControlTask.step digest service remoteAddr heartbeatTimeout t
      (readAction item) = some t') : t.pc.online = true := by
  obtain ⟨pc, signal, sent, chans⟩ := t
  cases item with
  | raw n =>
      simp only [readAction, ControlTask.step] at hs
      split at hs
      · rename_i hcond
        obtain ⟨rfl, -⟩ := hcond
        rfl
      · cases hs
  | frame m =>
      simp only [readAction, ControlTask.step, ControlTask.stepRead] at hs
      split at hs
      · rfl
      · rfl
      · rfl
      · rfl
      · cases hs

/-- What a command does to an established client; anything else ends the run. -/
theorem stepRead_forward {m : PacketMessage} {key : Digest}
    {signal : Option ControlTask.Signal} {sent : List PacketMessage}
    {chans : List Digest}
    (hs : ControlTask.stepRead digest service
      ⟨.forward key, signal, sent, chans⟩ (.ok m) = some t') :
    (∃ cmd, m = .control cmd ∧ t'.pc = .forward key ∧ t'.sent = sent) ∨
      (t'.pc.online = false ∧ t'.sent = sent) := by
  simp only [ControlTask.stepRead] at hs
  split at hs
  · rename_i hread
    cases hs
    exact Or.inl ⟨_, readControlCmd_eq_ok hread, rfl, rfl⟩
  · rename_i hread
    cases hs
    exact Or.inl ⟨_, readControlCmd_eq_ok hread, rfl, rfl⟩
  · cases hs
    exact Or.inr ⟨rfl, rfl⟩

/-- **Step lemma**: the client reads. -/
theorem Played.read {item : Item} (h : Played digest service t.pc up down)
    (hs : ControlTask.step digest service remoteAddr heartbeatTimeout t
      (readAction item) = some t') :
    t'.sent = t.sent ∧ (t'.pc.online = true →
      Played digest service t'.pc up (down ++ [item])) := by
  obtain ⟨pc, signal, sent, chans⟩ := t
  dsimp only at h
  cases item with
  | raw n =>
      simp only [readAction, ControlTask.step] at hs
      split at hs
      · rename_i hcond
        obtain ⟨rfl, hmode⟩ := hcond
        cases hs
        refine ⟨rfl, fun _ => ?_⟩
        cases h with
        | nonce pad =>
            have hgreet : greeting service n = .raw n := if_pos hmode
            rw [List.nil_append, ← hgreet]
            exact .auth pad n
      · cases hs
  | frame m =>
      change ControlTask.stepRead digest service _ (.ok m) = some t' at hs
      cases h with
      | hello => cases hs
      | auth pad n => cases hs
      | nonce pad =>
          simp only [ControlTask.stepRead] at hs
          split at hs
          · cases hs
          · rename_i hmode
            split at hs
            · rename_i n hread
              cases hs
              refine ⟨rfl, fun _ => ?_⟩
              have hgreet : greeting service n = .frame m := by
                rw [readNonce_eq_ok hread]
                exact if_neg hmode
              rw [List.nil_append, ← hgreet]
              exact .auth pad n
            · cases hs
              exact ⟨rfl, fun hon => by cases hon⟩
      | ack pad n =>
          simp only [ControlTask.stepRead] at hs
          split at hs
          · rename_i pc hread
            cases hs
            refine ⟨rfl, fun _ => ?_⟩
            rcases readAcked_eq_ok hread with
              ⟨hmode, rfl, rfl⟩ | ⟨hmode, rfl, rfl⟩
            · exact .key pad n hmode
            · exact .control pad n [] hmode
          · cases hs
            exact ⟨rfl, fun hon => by cases hon⟩
      | key pad n hmode =>
          simp only [ControlTask.stepRead] at hs
          split at hs
          · rename_i key hread
            cases hs
            refine ⟨rfl, fun _ => ?_⟩
            rw [Server.readAuth_eq_ok hread]
            exact .visitor pad n key [] hmode
          · cases hs
            exact ⟨rfl, fun hon => by cases hon⟩
      | control pad n cmds hmode =>
          rcases stepRead_forward hs with ⟨cmd, rfl, hpc, hsent⟩ | ⟨hoff, hsent⟩
          · refine ⟨hsent, fun _ => ?_⟩
            rw [hpc, List.append_assoc, ← commands_snoc]
            exact .control pad n (cmds ++ [cmd]) hmode
          · exact ⟨hsent, fun hon => by rw [hoff] at hon; cases hon⟩
      | visitor pad n key cmds hmode =>
          rcases stepRead_forward hs with ⟨cmd, rfl, hpc, hsent⟩ | ⟨hoff, hsent⟩
          · refine ⟨hsent, fun _ => ?_⟩
            rw [hpc, List.append_assoc, ← commands_snoc]
            exact .visitor pad n key (cmds ++ [cmd]) hmode
          · exact ⟨hsent, fun hon => by rw [hoff] at hon; cases hon⟩

/-- Where the client goes by itself. -/
theorem act_cases {a : ControlTask.Action} (hlocal : a.remote = false)
    (hs : ControlTask.step digest service remoteAddr heartbeatTimeout t a =
      some t') :
    t'.pc.online = false ∨ (t'.pc = t.pc ∧ t'.sent = t.sent) ∨
    (t.pc = .hello ∧ t'.pc = .nonce ∧ ∃ pad,
      t'.sent = t.sent ++ [.hello (helloSend digest service pad)]) ∨
    ∃ nonce, t.pc = .auth nonce ∧ t'.pc = .ack nonce ∧
      t'.sent = t.sent ++ [authSend digest service nonce] := by
  cases a with
  | resolved res =>
      simp only [ControlTask.step] at hs
      split at hs <;> cases hs
      cases res <;> exact Or.inl rfl
  | connected res =>
      simp only [ControlTask.step] at hs
      split at hs <;> cases hs
      cases res with
      | ok u => cases hlocal
      | error err => exact Or.inl rfl
  | hello pad res =>
      simp only [ControlTask.step] at hs
      split at hs
      · rename_i hpc
        cases hs
        cases res with
        | ok u => exact Or.inr (Or.inr (Or.inl ⟨hpc, rfl, pad, rfl⟩))
        | error err => exact Or.inl rfl
      · cases hs
  | auth res =>
      simp only [ControlTask.step] at hs
      split at hs
      · rename_i nonce hpc
        cases hs
        cases res with
        | ok u => exact Or.inr (Or.inr (Or.inr ⟨nonce, hpc, rfl, rfl⟩))
        | error err => exact Or.inl rfl
      · cases hs
  | read res =>
      cases res with
      | ok m => cases hlocal
      | error err =>
          simp only [ControlTask.step, ControlTask.stepRead] at hs
          left
          split at hs
          · split at hs <;> cases hs
            rfl
          · cases hs
            rfl
          · cases hs
            rfl
          · cases hs
            rfl
          · cases hs
  | challenge res =>
      cases res with
      | ok d => cases hlocal
      | error err =>
          simp only [ControlTask.step] at hs
          split at hs <;> cases hs
          exact Or.inl rfl
  | heartbeatTimeout =>
      simp only [ControlTask.step] at hs
      split at hs
      · split at hs <;> cases hs
        exact Or.inl rfl
      · cases hs
  | shutdown =>
      simp only [ControlTask.step] at hs
      split at hs
      · split at hs <;> cases hs
        exact Or.inl rfl
      · cases hs
  | tryRecv =>
      simp only [ControlTask.step] at hs
      split at hs <;> cases hs
      left
      dsimp only
      split <;> rfl
  | slept =>
      simp only [ControlTask.step] at hs
      split at hs <;> cases hs
      exact Or.inl rfl
  | signal g =>
      simp only [ControlTask.step] at hs
      split at hs <;> cases hs
      exact Or.inr (Or.inl ⟨rfl, rfl⟩)

/-- **Step lemma**: the client goes on by itself. -/
theorem Played.act {a : ControlTask.Action} (hlocal : a.remote = false)
    (h : Played digest service t.pc up down)
    (hs : ControlTask.step digest service remoteAddr heartbeatTimeout t a =
      some t') (hon : t'.pc.online = true) :
    Played digest service t'.pc (up ++ t'.sent.drop t.sent.length) down := by
  rcases act_cases hlocal hs with
    hoff | ⟨hpc, hsent⟩ | ⟨hpc, hpc', pad, hsent⟩ | ⟨nonce, hpc, hpc', hsent⟩
  · rw [hoff] at hon
    cases hon
  · rw [hpc, hsent, List.drop_length, List.append_nil]
    exact h
  · rw [hpc] at h
    rw [hpc', hsent, List.drop_left]
    cases h
    exact .nonce pad
  · rw [hpc] at h
    rw [hpc', hsent, List.drop_left]
    cases h with
    | auth pad => exact .ack pad nonce

theorem offline_act {a : ControlTask.Action} (hlocal : a.remote = false)
    (hoff : t.pc.online = false)
    (hs : ControlTask.step digest service remoteAddr heartbeatTimeout t a =
      some t') : t'.pc.online = false := by
  rcases act_cases hlocal hs with
    hoff' | ⟨hpc, -⟩ | ⟨hpc, -⟩ | ⟨nonce, hpc, -⟩
  · exact hoff'
  · rw [hpc]
    exact hoff
  · rw [hpc] at hoff
    cases hoff
  · rw [hpc] at hoff
    cases hoff

end

/-! ## What the two know of each other -/

section

variable {digest : Bytes → Digest} {service : ClientServiceConfig}
  {remoteAddr : String} {heartbeatTimeout : UInt64} {s s' : State} {c : ConnId}

def CompleteOn (server : Server.State) (c : ConnId) : Prop :=
  ∃ conn, server.conns.lookup c = some conn ∧ Complete conn.trace

theorem saidOn_eq {server : Server.State} {conn : Server.Conn}
    (h : server.conns.lookup c = some conn) :
    saidOn server c = said conn.trace := by
  unfold saidOn
  rw [h]
  rfl

theorem heardOn_eq {server : Server.State} {conn : Server.Conn}
    (h : server.conns.lookup c = some conn) :
    heardOn server c = heard conn.trace := by
  unfold heardOn
  rw [h]
  rfl

theorem on_none {server : Server.State} (h : server.conns.lookup c = none) :
    saidOn server c = [] ∧ heardOn server c = [] := by
  unfold saidOn heardOn
  rw [h]
  exact ⟨rfl, rfl⟩

/-- What a step of the server does on one connection: it writes, or it reads
what arrives. After the last word it does not write. -/
structure Spoke (server server' : Server.State) (c : ConnId)
    (m : Option PacketMessage) (new : List Item) : Prop where
  said : saidOn server' c = saidOn server c ++ new
  heard : heardOn server' c = heardOn server c ++ m.toList
  reading : m ≠ none → new = []
  complete : CompleteOn server c → new = [] ∧ CompleteOn server' c

/-- **Step lemma**, for the server's side of a connection. -/
theorem spoke_step {server server' : Server.State} {a : Server.Action}
    (hscript : server.Scripted digest)
    (hs : Server.step digest server a = some server') (c : ConnId) :
    ∃ new, Spoke server server' c (arrives c a) new := by
  by_cases hown : ∃ l, a = .conn c l
  · obtain ⟨l, rfl⟩ := hown
    obtain ⟨conn, conn', e, hconn, hlocal, rfl⟩ := Server.step_conn hs
    obtain ⟨events, htrace, hheard, hquiet⟩ := Server.localStep_trace hlocal
    have hconn' : ((server.apply c e).setConn c conn').conns.lookup c =
      some conn' := Server.lookup_setConn_self
    have harrives : arrives c (.conn c l) = l.message? := by
      cases l with
      | receive m nonce => exact if_pos rfl
      | _ => rfl
    rw [harrives]
    refine ⟨said events, ?_, ?_, ?_, ?_⟩
    · rw [saidOn_eq hconn, saidOn_eq hconn', htrace]
      exact List.filterMap_append
    · rw [heardOn_eq hconn, heardOn_eq hconn', htrace, ← hheard]
      exact List.filterMap_append
    · intro hm
      exact hquiet.resolve_left hm
    · rintro ⟨conn₁, hconn₁, hall⟩
      cases hconn.symm.trans hconn₁
      obtain ⟨hsame, -⟩ := (hscript c conn hconn).1.spoken.last_word hall hlocal
      have hnil : events = [] := by
        rw [hsame] at htrace
        exact List.append_cancel_left
          (htrace.symm.trans (List.append_nil _).symm)
      refine ⟨by rw [hnil]; rfl, conn', hconn', ?_⟩
      rw [hsame]
      exact hall
  · have harrives : arrives c a = none := by
      cases a with
      | conn c' l =>
          cases l with
          | receive m nonce =>
              refine if_neg ?_
              rintro rfl
              exact hown ⟨_, rfl⟩
          | _ => rfl
      | _ => rfl
    rw [harrives]
    refine ⟨[], ?_⟩
    cases hconn : server.conns.lookup c with
    | none =>
        have hquiet : saidOn server' c = [] ∧ heardOn server' c = [] := by
          cases hconn' : server'.conns.lookup c with
          | none => exact on_none hconn'
          | some conn' =>
              rw [saidOn_eq hconn', heardOn_eq hconn']
              rcases Server.lookup_of_step hs hconn' with
                hold | ⟨-, -, rfl⟩ | ⟨l, conn₀, e, -, hold, -⟩
              · rw [hconn] at hold
                cases hold
              · exact ⟨rfl, rfl⟩
              · rw [hconn] at hold
                cases hold
        refine ⟨?_, ?_, fun _ => rfl, ?_⟩
        · rw [hquiet.1, (on_none hconn).1]
          rfl
        · rw [hquiet.2, (on_none hconn).2]
          rfl
        · rintro ⟨conn, hconn', -⟩
          rw [hconn] at hconn'
          cases hconn'
    | some conn =>
        have hconn' : server'.conns.lookup c = some conn := by
          rcases Server.lookup_step hs hconn with
            hsame | ⟨l, conn', e, rfl, -⟩
          · exact hsame
          · exact absurd ⟨l, rfl⟩ hown
        refine ⟨?_, ?_, fun _ => rfl, ?_⟩
        · rw [saidOn_eq hconn, saidOn_eq hconn', List.append_nil]
        · rw [heardOn_eq hconn, heardOn_eq hconn']
          exact (List.append_nil _).symm
        · rintro ⟨conn₁, hconn₁, hall⟩
          cases hconn.symm.trans hconn₁
          exact ⟨rfl, conn, hconn', hall⟩

theorem complete_of_made {server : Server.State}
    (hscript : server.Scripted digest) (h : madeOn server c = true) :
    CompleteOn server c := by
  unfold madeOn at h
  obtain ⟨conn, hconn, hsession⟩ := Option.any_eq_true _ _ |>.mp h
  obtain ⟨x, hx, hmade⟩ := Option.any_eq_true _ _ |>.mp hsession
  exact ⟨conn, hconn, (hscript c conn hconn).2 x hx hmade⟩

/-- The connection `c` as the client of its present run and the server know
it. -/
structure Link (digest : Bytes → Digest) (service : ClientServiceConfig)
    (s : State) (c : ConnId) : Prop where
  played : Played digest service s.client.pc s.up.sent s.down.received
  up : s.up.Fifo
  down : s.down.Fifo
  heard : s.up.received = heardOn s.server c
  /-- Commands come after the last word of the handshake. -/
  said : ∃ cmds, s.down.sent = saidOn s.server c ++ commands cmds ∧
    (cmds = [] ∨ CompleteOn s.server c)

structure Inv (digest : Bytes → Digest) (config : ServerConfig)
    (service : ClientServiceConfig) (s : State) : Prop where
  config : s.server.config = config
  scripted : s.server.Scripted digest
  online : s.client.pc.online = true → s.link.isSome = true
  link : ∀ c, s.link = some c → Link digest service s c

theorem inv_init (config : ServerConfig) :
    Inv digest config service (init digest config) where
  config := rfl
  scripted := Server.scripted_init config
  online hon := by cases hon
  link c hc := by cases hc

/-- The server moves, and reads the client's next frame or none. -/
theorem Link.serve {server : Server.State} {m : Option PacketMessage}
    {new : List Item} (h : Link digest service s c) (hlink : s.link = some c)
    (hspoke : Spoke s.server server c m new) {up : Channel PacketMessage}
    (hsent : up.sent = s.up.sent) (hfifo : up.Fifo)
    (hrecv : up.received = s.up.received ++ m.toList) :
    Link digest service { s.serve server with up := up } c := by
  have hdown : (s.serve server).down = s.down.send new := by
    unfold State.serve
    rw [hlink]
    dsimp only [Option.elim]
    rw [hspoke.said, List.drop_left]
  constructor
  · dsimp only
    rw [hdown, hsent]
    exact h.played
  · exact hfifo
  · dsimp only
    rw [hdown]
    exact h.down.send new
  · dsimp only
    rw [hrecv, h.heard]
    exact hspoke.heard.symm
  · obtain ⟨cmds, hsaid, hall⟩ := h.said
    refine ⟨cmds, ?_, hall.imp id (fun h => (hspoke.complete h).2)⟩
    dsimp only
    rw [hdown]
    show s.down.sent ++ new = saidOn server c ++ commands cmds
    rw [hsaid, hspoke.said]
    rcases hall with rfl | hall
    · rw [commands, List.map_nil, List.append_nil, List.append_nil]
    · rw [(hspoke.complete hall).1, List.append_nil, List.append_nil]

section Steps

variable {config : ServerConfig}

/-- Something else than the client's connection moves at the server, or the
server writes there. -/
theorem Inv.server (h : Inv digest config service s) {a : Server.Action}
    (harrives : ¬ s.link.any (fun c => (arrives c a).isSome) = true)
    {server : Server.State}
    (hserver : Server.step digest s.server a = some server) :
    Inv digest config service (s.serve server) := by
  refine ⟨(Server.config_step hserver).trans h.config,
    h.scripted.step hserver, h.online, ?_⟩
  intro c hc
  have hlink : s.link = some c := hc
  obtain ⟨new, hspoke⟩ := spoke_step h.scripted hserver c
  have hnone : arrives c a = none := by
    rw [hlink] at harrives
    simpa using harrives
  rw [hnone] at hspoke
  exact (h.link c hlink).serve hlink hspoke rfl (h.link c hlink).up
    (List.append_nil _).symm

/-- The server reads the client's next frame. -/
theorem Inv.deliver (h : Inv digest config service s) {nonce : Nonce}
    {m : PacketMessage} (hlink : s.link = some c)
    (hnext : s.up.next? = some m) {server : Server.State}
    (hserver : Server.step digest s.server (.conn c (.receive m nonce)) =
      some server) :
    Inv digest config service { s.serve server with up := s.up.receive m } := by
  refine ⟨(Server.config_step hserver).trans h.config,
    h.scripted.step hserver, h.online, ?_⟩
  intro c' hc
  have hlink' : s.link = some c' := hc
  cases hlink.symm.trans hlink'
  obtain ⟨new, hspoke⟩ := spoke_step h.scripted hserver c
  have hsome : arrives c (.conn c (.receive m nonce)) = some m := if_pos rfl
  rw [hsome] at hspoke
  exact (h.link c hlink).serve hlink hspoke rfl
    ((h.link c hlink).up.receive hnext) rfl

theorem Inv.command (h : Inv digest config service s)
    (cmd : ControlChannelCmd) (hlink : s.link = some c)
    (hmade : madeOn s.server c = true) : Inv digest config service
      { s with down := s.down.send [.frame (.control cmd)] } := by
  refine ⟨h.config, h.scripted, h.online, ?_⟩
  intro c' hc
  cases hlink.symm.trans hc
  obtain ⟨hplayed, hup, hdown, hheard, cmds, hsaid, -⟩ := h.link c hlink
  refine ⟨hplayed, hup, hdown.send _, hheard, cmds ++ [cmd], ?_,
    Or.inr (complete_of_made h.scripted hmade)⟩
  rw [commands_snoc, ← List.append_assoc, ← hsaid]
  rfl

theorem Inv.connect (h : Inv digest config service s)
    (hfree : s.server.conns.lookup c = none) {client : ControlTask.State}
    (hclient : ControlTask.step digest service remoteAddr heartbeatTimeout
      s.client (.connected (.ok ())) = some client) :
    Inv digest config service
      { s with
        client := client, link := some c
        up := .empty, down := .empty } := by
  have hpc : client.pc = .hello := by
    simp only [ControlTask.step] at hclient
    split at hclient <;> cases hclient
    rfl
  refine ⟨h.config, h.scripted, fun _ => rfl, ?_⟩
  intro c' hc
  cases hc
  refine ⟨?_, Channel.fifo_empty, Channel.fifo_empty, ?_, [], ?_, Or.inl rfl⟩
  · dsimp only
    rw [hpc]
    exact .hello
  · exact (on_none hfree).2.symm
  · dsimp only
    rw [(on_none hfree).1]
    rfl

/-- The client's connection lasts as long as its run. -/
theorem link_play {client : ControlTask.State}
    (hc : (s.play client).link = some c) :
    client.pc.online = true ∧ s.link = some c := by
  by_cases hon : client.pc.online = true
  · exact ⟨hon, (if_pos hon).symm.trans hc⟩
  · have hnone : (s.play client).link = none := if_neg hon
    cases hnone.symm.trans hc

theorem Inv.client (h : Inv digest config service s) {a : ControlTask.Action}
    (hlocal : a.remote = false) {client : ControlTask.State}
    (hclient : ControlTask.step digest service remoteAddr heartbeatTimeout
      s.client a = some client) :
    Inv digest config service (s.play client) := by
  refine ⟨h.config, h.scripted, ?_, ?_⟩
  · intro hon
    have hon : client.pc.online = true := hon
    have hlink : (s.play client).link = s.link := if_pos hon
    rw [hlink]
    apply h.online
    by_contra hoff
    rw [offline_act hlocal (Bool.not_eq_true _ ▸ hoff) hclient] at hon
    cases hon
  · intro c hc
    obtain ⟨hon, hlink⟩ := link_play hc
    obtain ⟨hplayed, hup, hdown, hheard, hsaid⟩ := h.link c hlink
    exact ⟨hplayed.act hlocal hclient hon, hup.send _, hdown, hheard, hsaid⟩

theorem Inv.read (h : Inv digest config service s) {item : Item}
    (hnext : s.down.next? = some item) {client : ControlTask.State}
    (hclient : ControlTask.step digest service remoteAddr heartbeatTimeout
      s.client (readAction item) = some client) :
    Inv digest config service
      { s.play client with down := s.down.receive item } := by
  refine ⟨h.config, h.scripted, ?_, ?_⟩
  · intro hon
    have hlink : (s.play client).link = s.link := if_pos hon
    exact hlink.symm ▸ h.online (online_of_read hclient)
  · intro c hc
    obtain ⟨hon, hlink⟩ := link_play hc
    obtain ⟨hplayed, hup, hdown, hheard, hsaid⟩ := h.link c hlink
    obtain ⟨hsent, hread⟩ := hplayed.read hclient
    have hup' : (s.play client).up = s.up := by
      unfold State.play Channel.send
      rw [hsent, List.drop_length, List.append_nil]
    refine ⟨?_, ?_, hdown.receive hnext, ?_, hsaid⟩
    · dsimp only
      rw [hup']
      exact hread hon
    · dsimp only
      rw [hup']
      exact hup
    · dsimp only
      rw [hup']
      exact hheard

/-- **Step lemma.** -/
theorem Inv.step {a : Action} (h : Inv digest config service s)
    (hs : step digest service remoteAddr heartbeatTimeout s a = some s') :
    Inv digest config service s' := by
  cases a with
  | server a =>
      simp only [Tunnel.step] at hs
      split at hs
      · cases hs
      · rename_i harrives
        obtain ⟨server, hserver, rfl⟩ := Option.map_eq_some_iff.mp hs
        exact h.server harrives hserver
  | command cmd =>
      simp only [Tunnel.step] at hs
      split at hs
      · rename_i hlink
        split at hs
        · rename_i hmade
          cases hs
          exact h.command cmd hlink hmade
        · cases hs
      · cases hs
  | connect c =>
      simp only [Tunnel.step] at hs
      split at hs
      · rename_i hfree
        obtain ⟨client, hclient, rfl⟩ := Option.map_eq_some_iff.mp hs
        exact h.connect hfree hclient
      · cases hs
  | client a =>
      simp only [Tunnel.step] at hs
      split at hs
      · cases hs
      · rename_i hlocal
        obtain ⟨client, hclient, rfl⟩ := Option.map_eq_some_iff.mp hs
        exact h.client (Bool.not_eq_true _ ▸ hlocal) hclient
  | deliver nonce =>
      simp only [Tunnel.step] at hs
      split at hs
      · rename_i hlink hnext
        obtain ⟨server, hserver, rfl⟩ := Option.map_eq_some_iff.mp hs
        exact h.deliver hlink hnext hserver
      · cases hs
  | read =>
      simp only [Tunnel.step] at hs
      split at hs
      · rename_i hnext
        obtain ⟨client, hclient, rfl⟩ := Option.map_eq_some_iff.mp hs
        exact h.read hnext hclient
      · cases hs

end Steps

/-! ## Agreement -/

/-- What the client has read of the handshake was written in the handshake. -/
theorem Link.read_of_said (h : Link digest service s c) {items : List Item}
    {rest : List Item} (hread : s.down.received = items ++ rest)
    (hitems : ∀ cmd, Item.frame (.control cmd) ∉ items) :
    items <+: saidOn s.server c := by
  obtain ⟨cmds, hsaid, -⟩ := h.said
  have hpre : items <+: saidOn s.server c ++ commands cmds := by
    rw [← hsaid]
    exact (List.prefix_append items rest).trans (hread ▸ h.down)
  rcases List.prefix_or_prefix_of_prefix hpre (List.prefix_append _ _) with
    hshort | ⟨tail, rfl⟩
  · exact hshort
  · have htail : tail <+: commands cmds :=
      (List.prefix_append_right_inj _).mp hpre
    rcases tail with - | ⟨item, tail⟩
    · exact ⟨[], (List.append_nil _).trans (List.append_nil _)⟩
    · have hmem : item ∈ commands cmds := htail.subset List.mem_cons_self
      obtain ⟨cmd, -, rfl⟩ := List.mem_map.mp hmem
      exact absurd (List.mem_append_right _ List.mem_cons_self) (hitems cmd)

/-- What the server has read is what the client has written. -/
theorem Link.heard_of_sent (h : Link digest service s c) :
    heardOn s.server c <+: s.up.sent := by
  rw [← h.heard]
  exact h.up

theorem conn_of_said {item : Item} {items : List Item}
    (h : item :: items <+: saidOn s.server c) :
    ∃ conn, s.server.conns.lookup c = some conn ∧
      item :: items <+: said conn.trace := by
  cases hconn : s.server.conns.lookup c with
  | none =>
      rw [(on_none hconn).1] at h
      exact absurd (List.prefix_nil.mp h) (List.cons_ne_nil _ _)
  | some conn =>
      rw [saidOn_eq hconn] at h
      exact ⟨conn, rfl, h⟩

theorem greeting_ne_control (nonce : Digest) (cmd : ControlChannelCmd) :
    Item.frame (.control cmd) ≠ greeting service nonce := by
  unfold greeting
  split
  · exact Item.noConfusion
  · exact fun heq => by cases heq

/-- A client that has answered has read the greeting it answers. -/
theorem Played.answered {pc : ControlTask.Pc} {up : List PacketMessage}
    {down : List Item} (h : Played digest service pc up down)
    (hlen : 2 ≤ up.length) :
    ∃ pad nonce rest, up = [.hello (helloSend digest service pad),
        authSend digest service nonce] ∧
      down = greeting service nonce :: rest ∧
      (pc = .ack nonce ∨ (isVisitorMode service = true ∧ pc = .key) ∨
        (isVisitorMode service = false ∧
          pc = .forward (tokenDigest digest service nonce)) ∨
        (isVisitorMode service = true ∧ ∃ key cmds, pc = .forward key ∧
          rest = [.frame (.visitorAck .ok), .frame (.auth key)] ++
            commands cmds)) := by
  cases h with
  | hello => cases hlen
  | nonce pad => exact absurd hlen (by simp)
  | auth pad nonce => exact absurd hlen (by simp)
  | ack pad nonce => exact ⟨pad, nonce, _, rfl, rfl, Or.inl rfl⟩
  | key pad nonce hmode =>
      exact ⟨pad, nonce, _, rfl, rfl, Or.inr (Or.inl ⟨hmode, rfl⟩)⟩
  | control pad nonce cmds hmode =>
      exact ⟨pad, nonce, _, rfl, rfl, Or.inr (Or.inr (Or.inl ⟨hmode, rfl⟩))⟩
  | visitor pad nonce key cmds hmode =>
      exact ⟨pad, nonce, _, rfl, rfl,
        Or.inr (Or.inr (Or.inr ⟨hmode, key, cmds, rfl, rfl⟩))⟩

/-- A server that has heard two frames knows the client's nonce. -/
theorem Link.answered (h : Link digest service s c) {m₁ m₂ : PacketMessage}
    (hheard : heardOn s.server c = [m₁, m₂]) :
    ∃ pad nonce rest, m₁ = .hello (helloSend digest service pad) ∧
      m₂ = authSend digest service nonce ∧
      s.down.received = greeting service nonce :: rest ∧
      [greeting service nonce] <+: saidOn s.server c ∧
      (s.client.pc = .ack nonce ∨
        (isVisitorMode service = true ∧ s.client.pc = .key) ∨
        (isVisitorMode service = false ∧
          s.client.pc = .forward (tokenDigest digest service nonce)) ∨
        (isVisitorMode service = true ∧ ∃ key cmds,
          s.client.pc = .forward key ∧
          rest = [.frame (.visitorAck .ok), .frame (.auth key)] ++
            commands cmds)) := by
  have hsent := h.heard_of_sent
  rw [hheard] at hsent
  obtain ⟨pad, nonce, rest, hup, hdown, hpc⟩ :=
    h.played.answered hsent.length_le
  rw [hup] at hsent
  have heq := hsent.eq_of_length rfl
  obtain ⟨rfl, rfl⟩ : m₁ = .hello (helloSend digest service pad) ∧
      m₂ = authSend digest service nonce := by simpa using heq
  refine ⟨pad, nonce, rest, rfl, rfl, hdown, ?_, hpc⟩
  have hread : s.down.received = [greeting service nonce] ++ rest := hdown
  refine h.read_of_said hread ?_
  intro cmd hmem
  exact greeting_ne_control nonce cmd (List.mem_singleton.mp hmem)

/-- What the server and the client of a control channel agree on. -/
structure ControlAgreed (digest : Bytes → Digest)
    (service : ClientServiceConfig) (conn : Server.Conn) (nonce key : Digest)
    (found : ServerServiceConfig) : Prop where
  trace : conn.trace = Server.controlEvents
      (serviceDigest digest service.user service.name) nonce found key ++
    [.sent (.ack .ok)]
  pc : conn.pc = .finished (.controlEstablished
    (serviceDigest digest service.user service.name) key found)
  server : key = digest (Server.challenge found.token nonce)
  client : key = digest (Server.challenge service.token nonce)

/-- What the server and a visitor agree on; the server may still be waiting
to register the session, or have been stopped while it waited. -/
structure VisitorAgreed (digest : Bytes → Digest) (config : ServerConfig)
    (service : ClientServiceConfig) (conn : Server.Conn)
    (pad nonce : Digest) (v : Server.Visitor) : Prop where
  trace : conn.trace = Server.visitorEvents pad nonce v.auth v.sessionNonce ++
    [.sent (.visitorAck .ok), .sent (.auth v.sessionNonce)]
  pc : conn.pc = .lockVisitor v ∨ conn.pc = .finished (.visitorEstablished v) ∨
    conn.pc = .finished .aborted
  auth : PacketMessage.visitorAuth v.auth = authSend digest service nonce
  check : Server.checkVisitor digest config nonce v.auth v.sessionNonce = .ok v

/-- The server has admitted the client: the client is there, or will be when
it has read the ack. -/
theorem Link.admitted (h : Link digest service s c) {conn : Server.Conn}
    (hconn : s.server.conns.lookup c = some conn) {d nonce : Digest}
    {found : ServerServiceConfig} (htrace : conn.trace =
      Server.controlEvents d nonce found
        (digest (Server.challenge found.token nonce)) ++ [.sent (.ack .ok)])
    (hpc : conn.pc = .finished (.controlEstablished d
      (digest (Server.challenge found.token nonce)) found)) :
    isVisitorMode service = false ∧
    ControlAgreed digest service conn nonce
      (digest (Server.challenge found.token nonce)) found ∧
    (s.client.pc = .ack nonce ∨ s.client.pc =
      .forward (digest (Server.challenge found.token nonce))) := by
  have hheard : heardOn s.server c =
      [.hello (.controlChannelHello currentProtoVersion d),
        .auth (digest (Server.challenge found.token nonce))] := by
    rw [heardOn_eq hconn, htrace, Server.heard_admitted]
  have hsaid : saidOn s.server c =
      [.frame (.hello (.controlChannelHello currentProtoVersion nonce)),
        .frame (.ack .ok)] := by
    rw [saidOn_eq hconn, htrace, Server.said_admitted]
  obtain ⟨pad, nonce', rest, hhello, hauth, -, hgreet, hwhere⟩ :=
    h.answered hheard
  have hmode : isVisitorMode service = false := by
    by_contra hvisitor
    unfold helloSend at hhello
    rw [if_pos (Bool.not_eq_false _ ▸ hvisitor)] at hhello
    cases hhello
  unfold helloSend at hhello
  rw [hmode] at hhello
  cases hhello
  unfold greeting at hgreet
  rw [hmode, hsaid] at hgreet
  obtain rfl : nonce' = nonce := by simpa using hgreet
  unfold authSend at hauth
  rw [hmode] at hauth
  have hkey : digest (Server.challenge found.token nonce') =
    tokenDigest digest service nonce' := by simpa using hauth
  refine ⟨hmode, ⟨htrace, hpc, rfl, hkey⟩, ?_⟩
  rcases hwhere with hack | ⟨hvisitor, -⟩ | ⟨-, hforward⟩ | ⟨hvisitor, -⟩
  · exact Or.inl hack
  · rw [hmode] at hvisitor
    cases hvisitor
  · rw [hkey]
    exact Or.inr hforward
  · rw [hmode] at hvisitor
    cases hvisitor

/-- The server has given a visitor its session key: the visitor has it, or will
when it has read what is on its way. -/
theorem Link.keyed {config : ServerConfig} (h : Link digest service s c)
    {conn : Server.Conn} (hconn : s.server.conns.lookup c = some conn)
    {w nonce : Digest} {v : Server.Visitor}
    (hcheck : Server.checkVisitor digest config nonce v.auth v.sessionNonce =
      .ok v)
    (htrace : conn.trace = Server.visitorEvents w nonce v.auth v.sessionNonce ++
      [.sent (.visitorAck .ok), .sent (.auth v.sessionNonce)])
    (hpc : conn.pc = .lockVisitor v ∨
      conn.pc = .finished (.visitorEstablished v) ∨
      conn.pc = .finished .aborted) :
    isVisitorMode service = true ∧
    VisitorAgreed digest config service conn w nonce v ∧
    (s.client.pc = .ack nonce ∨ s.client.pc = .key ∨
      s.client.pc = .forward v.sessionNonce) := by
  have hheard : heardOn s.server c =
      [.hello (.visitorHello currentProtoVersion w), .visitorAuth v.auth] := by
    rw [heardOn_eq hconn, htrace, Server.heard_keyed]
  have hsaid : saidOn s.server c = [.raw nonce, .frame (.visitorAck .ok),
      .frame (.auth v.sessionNonce)] := by
    rw [saidOn_eq hconn, htrace, Server.said_keyed]
  obtain ⟨pad, nonce', rest, hhello, hauth, hread, hgreet, hwhere⟩ :=
    h.answered hheard
  have hmode : isVisitorMode service = true := by
    by_contra hcontrol
    unfold helloSend at hhello
    rw [if_neg hcontrol] at hhello
    cases hhello
  unfold greeting at hgreet
  rw [hmode, hsaid] at hgreet
  obtain rfl : nonce' = nonce := by simpa using hgreet
  refine ⟨hmode, ⟨htrace, hpc, hauth, hcheck⟩, ?_⟩
  rcases hwhere with hack | ⟨-, hkey⟩ | ⟨hcontrol, -⟩ |
    ⟨-, key, cmds, hforward, rfl⟩
  · exact Or.inl hack
  · exact Or.inr (Or.inl hkey)
  · rw [hmode] at hcontrol
    cases hcontrol
  · -- the key that was read is the one that was written
    have hread : s.down.received = [greeting service nonce',
        .frame (.visitorAck .ok), .frame (.auth key)] ++ commands cmds := hread
    have hitems := h.read_of_said hread (by
      intro cmd hmem
      have hne : _ ≠ greeting service nonce' := greeting_ne_control nonce' cmd
      simp [hne] at hmem)
    rw [hsaid] at hitems
    obtain ⟨-, rfl⟩ : greeting service nonce' = .raw nonce' ∧
      key = v.sessionNonce := by simpa using hitems
    exact Or.inr (Or.inr hforward)

/-- An established client of a control channel has read the server's Ok. -/
theorem Link.established_control (h : Link digest service s c)
    (hscript : s.server.Scripted digest) {key : Digest}
    (hpc : s.client.pc = .forward key)
    (hmode : isVisitorMode service = false) :
    ∃ conn nonce found, s.server.conns.lookup c = some conn ∧
      ControlAgreed digest service conn nonce key found := by
  have hplayed := h.played
  rw [hpc] at hplayed
  generalize hup : s.up.sent = up at hplayed
  generalize hread : s.down.received = down at hplayed
  cases hplayed with
  | visitor pad n key cmds hvisitor =>
      rw [hmode] at hvisitor
      cases hvisitor
  | control pad n cmds =>
      have hitems := h.read_of_said hread (by
        intro cmd hmem
        have hne : _ ≠ greeting service n := greeting_ne_control n cmd
        simp [hne] at hmem)
      obtain ⟨conn, hconn, hsaid⟩ := conn_of_said hitems
      have hgreet : greeting service n =
          .frame (.hello (.controlChannelHello currentProtoVersion n)) :=
        if_neg (by rw [hmode]; exact Bool.false_ne_true)
      rw [hgreet] at hsaid
      have hspoken := (hscript c conn hconn).1.spoken
      generalize htrace : conn.trace = trace at hspoken
      generalize hcpc : conn.pc = pc at hspoken
      cases hspoken with
      | admitted d nonce found =>
          obtain ⟨-, hagreed, hwhere⟩ := h.admitted hconn htrace hcpc
          rcases hwhere with hack | hforward
          · rw [hpc] at hack
            cases hack
          · have hkey := ControlTask.Pc.forward.inj (hpc.symm.trans hforward)
            rw [hkey]
            exact ⟨conn, nonce, found, hconn, hagreed⟩
      | silent hs => simp [htrace, hs] at hsaid
      | greeted d nonce hheard hs => simp [htrace, hs] at hsaid
      | denied d nonce ack hheard hack hs =>
          simp [htrace, hs, hack.symm] at hsaid
      | challenged w nonce hheard hs => simp [htrace, hs] at hsaid
      | refused w nonce ack hheard hack hs => simp [htrace, hs] at hsaid
      | welcomed w nonce hheard hs => simp [htrace, hs] at hsaid
      | keyed w nonce v hcheck hp =>
          rw [htrace, Server.said_keyed] at hsaid
          simp at hsaid

/-- An established visitor has read the key that the server gave it. -/
theorem Link.established_visitor {config : ServerConfig}
    (h : Link digest service s c) (hscript : s.server.Scripted digest)
    (hconfig : s.server.config = config)
    {key : Digest} (hpc : s.client.pc = .forward key)
    (hmode : isVisitorMode service = true) :
    ∃ conn pad nonce v, s.server.conns.lookup c = some conn ∧
      VisitorAgreed digest config service conn pad nonce v ∧
      v.sessionNonce = key := by
  have hplayed := h.played
  rw [hpc] at hplayed
  generalize hup : s.up.sent = up at hplayed
  generalize hread : s.down.received = down at hplayed
  cases hplayed with
  | control pad n cmds hcontrol =>
      rw [hmode] at hcontrol
      cases hcontrol
  | visitor pad n key cmds =>
      have hitems := h.read_of_said hread (by
        intro cmd hmem
        have hne : _ ≠ greeting service n := greeting_ne_control n cmd
        simp [hne] at hmem)
      obtain ⟨conn, hconn, hsaid⟩ := conn_of_said hitems
      have hgreet : greeting service n = .raw n := if_pos hmode
      rw [hgreet] at hsaid
      have hspoken := (hscript c conn hconn).1.spoken
      generalize htrace : conn.trace = trace at hspoken
      generalize hcpc : conn.pc = pc at hspoken
      cases hspoken with
      | keyed w nonce v hcheck hp =>
          rw [← hcpc] at hp
          rw [hconfig] at hcheck
          obtain ⟨-, hagreed, hwhere⟩ := h.keyed hconn hcheck htrace hp
          rcases hwhere with hack | hkey | hforward
          · rw [hpc] at hack
            cases hack
          · rw [hpc] at hkey
            cases hkey
          · exact ⟨conn, w, nonce, v, hconn, hagreed,
              (ControlTask.Pc.forward.inj (hpc.symm.trans hforward)).symm⟩
      | admitted d nonce found =>
          rw [htrace, Server.said_admitted] at hsaid
          simp at hsaid
      | silent hs => simp [htrace, hs] at hsaid
      | greeted d nonce hheard hs => simp [htrace, hs] at hsaid
      | denied d nonce ack hheard hack hs => simp [htrace, hs] at hsaid
      | challenged w nonce hheard hs => simp [htrace, hs] at hsaid
      | refused w nonce ack hheard hack hs =>
          simp [htrace, hs, hack.symm] at hsaid
      | welcomed w nonce hheard hs => simp [htrace, hs] at hsaid

end

/-! ## The main result -/

/-- **Client and server agree.** Whatever else is connected to the server, and
whatever was before: a client that takes its session for established shares it
with the task that serves its own connection, with the service, the nonce, the
key and the token the same on both sides. And when that task has registered a
session, the client is established with that very key or is about to be. -/
theorem handshake_agrees (digest : Bytes → Digest) (config : ServerConfig)
    (service : ClientServiceConfig) (remoteAddr : String)
    (heartbeatTimeout : UInt64) (as : List Action) (s : State)
    (hrun : Runs.Run (step digest service remoteAddr heartbeatTimeout)
      (init digest config) as s) :
    (∀ key, s.client.pc = .forward key → ∃ c conn,
      s.link = some c ∧ s.server.conns.lookup c = some conn ∧
      (isVisitorMode service = false → ∃ nonce found,
        ControlAgreed digest service conn nonce key found) ∧
      (isVisitorMode service = true → ∃ pad nonce v,
        VisitorAgreed digest config service conn pad nonce v ∧
        v.sessionNonce = key)) ∧
    (∀ c conn, s.link = some c → s.server.conns.lookup c = some conn →
      (∀ d key found, conn.pc = .finished (.controlEstablished d key found) →
        ∃ nonce, ControlAgreed digest service conn nonce key found ∧
          (s.client.pc = .ack nonce ∨ s.client.pc = .forward key)) ∧
      (∀ v, conn.pc = .finished (.visitorEstablished v) →
        ∃ pad nonce, VisitorAgreed digest config service conn pad nonce v ∧
          (s.client.pc = .ack nonce ∨ s.client.pc = .key ∨
            s.client.pc = .forward v.sessionNonce))) := by
  have hinv : Inv digest config service s :=
    Runs.run_preserves (fun _ _ _ h hs => h.step hs) (inv_init config) hrun
  constructor
  · intro key hpc
    have hon : s.client.pc.online = true := by
      rw [hpc]
      rfl
    obtain ⟨c, hc⟩ := Option.isSome_iff_exists.mp (hinv.online hon)
    have hlink := hinv.link c hc
    cases hmode : isVisitorMode service with
    | false =>
        obtain ⟨conn, nonce, found, hconn, hagreed⟩ :=
          hlink.established_control hinv.scripted hpc hmode
        exact ⟨c, conn, hc, hconn, fun _ => ⟨nonce, found, hagreed⟩,
          fun hvisitor => Bool.noConfusion hvisitor⟩
    | true =>
        obtain ⟨conn, pad, nonce, v, hconn, hagreed, hkey⟩ :=
          hlink.established_visitor hinv.scripted hinv.config hpc hmode
        exact ⟨c, conn, hc, hconn, fun hcontrol => Bool.noConfusion hcontrol,
          fun _ => ⟨pad, nonce, v, hagreed, hkey⟩⟩
  · intro c conn hc hconn
    have hlink := hinv.link c hc
    have hscript := (hinv.scripted c conn hconn).1
    rw [hinv.config] at hscript
    generalize htrace : conn.trace = trace at hscript
    constructor
    · intro d key found hpc
      rw [hpc] at hscript
      cases hscript with
      | controlEstablished d nonce found =>
          obtain ⟨-, hagreed, hwhere⟩ := hlink.admitted hconn htrace hpc
          exact ⟨nonce, hagreed, hwhere⟩
    · intro v hpc
      rw [hpc] at hscript
      cases hscript with
      | visitorEstablished w nonce v hcheck =>
          obtain ⟨-, hagreed, hwhere⟩ :=
            hlink.keyed hconn hcheck htrace (Or.inr (Or.inl hpc))
          exact ⟨w, nonce, hagreed, hwhere⟩

/-- The service of the sample as its client has it. -/
def webService : ClientServiceConfig where
  serviceType := .tcp
  name := "web"
  localAddr := "127.0.0.1:8000"
  preferIpv6 := false
  user := some "alice"
  token := some "alice-token"
  nodelay := none
  retryInterval := none
  remoteBindAddr := none
  proxyProtocol := none

/-- The client connects and shakes hands; the nonce is all zeros. -/
def openWeb : List Action :=
  [.client (.resolved (.ok ())), .connect 0,
    .client (.hello Server.zeros (.ok ())), .server (.accept 0),
    .deliver Server.zeros, .server (.conn 0 .proceed),
    .server (.conn 0 .proceed), .read, .client (.auth (.ok ())),
    .deliver Server.zeros, .server (.conn 0 .proceed),
    .server (.conn 0 .proceed), .read]

theorem handshake_agrees_web : ∃ s,
    Runs.Run (step Server.sampleDigest webService "127.0.0.1:2333" 40)
      (init Server.sampleDigest Server.sampleConfig) openWeb s ∧
    s.client.pc = .forward Server.webKey ∧ s.link = some 0 ∧
    ∃ conn nonce found, s.server.conns.lookup 0 = some conn ∧
      ControlAgreed Server.sampleDigest webService conn nonce Server.webKey
        found := by
  obtain ⟨s, hrun, hpc, hlink⟩ : ∃ s,
      Runs.Run (step Server.sampleDigest webService "127.0.0.1:2333" 40)
        (init Server.sampleDigest Server.sampleConfig) openWeb s ∧
      s.client.pc = .forward Server.webKey ∧ s.link = some 0 :=
    ⟨_, rfl, rfl, rfl⟩
  obtain ⟨c, conn, hc, hconn, hcontrol, -⟩ :=
    (handshake_agrees Server.sampleDigest Server.sampleConfig webService
      "127.0.0.1:2333" 40 openWeb s hrun).1 _ hpc
  cases hlink.symm.trans hc
  obtain ⟨nonce, found, hagreed⟩ := hcontrol rfl
  exact ⟨s, hrun, hpc, hlink, conn, nonce, found, hconn, hagreed⟩

end Rathole.Tunnel
