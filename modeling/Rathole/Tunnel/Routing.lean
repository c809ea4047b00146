import Rathole.Server.Authentication
import Rathole.Server.SessionKeys
import Rathole.Tunnel.Handshake

/-!
# Data channels find their client

A client opens its data channels with the key of its session. As long as the
server makes no key twice, they reach the handle of the client's own
connection and nobody else's.
-/

namespace Rathole.Server

open Runs

/-- A peer that was sent a key shares it with its connection, whatever has
become of the task since. -/
def KeysSent (s : State) : Prop :=
  ∀ c conn key, s.conns.lookup c = some conn →
    .sent (.auth key) ∈ conn.trace → conn.key = some key

section

variable {digest : Bytes → Digest} {config : ServerConfig} {s t : State}
  {a : Action}

/-- The key that has been sent is the visitor's. -/
theorem Spoken.key_sent {pc : Pc} {trace : List Event} {key : Nonce}
    (h : Spoken digest config pc trace) (hmem : .sent (.auth key) ∈ trace) :
    ∃ v, v.sessionNonce = key ∧ (pc = .lockVisitor v ∨
      pc = .finished (.visitorEstablished v) ∨ pc = .finished .aborted) := by
  have hitem := item_of_mem hmem
  cases h with
  | keyed w nonce v hcheck hpc =>
      rw [said_keyed] at hitem
      exact ⟨v, by simpa [eq_comm] using hitem, hpc⟩
  | admitted d nonce service =>
      rw [said_admitted] at hitem
      simp at hitem
  | silent hsaid => simp [hsaid] at hitem
  | greeted d nonce hheard hsaid => simp [hsaid] at hitem
  | denied d nonce ack hheard hack hsaid => simp [hsaid] at hitem
  | challenged w nonce hheard hsaid => simp [hsaid] at hitem
  | refused w nonce ack hheard hack hsaid => simp [hsaid] at hitem
  | welcomed w nonce hheard hsaid => simp [hsaid] at hitem

/-- A task is not stopped by going on. -/
theorem not_aborted_of_proceed {c : ConnId} {conn conn' : Conn} {e : Effect}
    (hs : proceed digest s c conn = some (conn', e)) :
    conn'.pc ≠ .finished .aborted := by
  unfold proceed at hs
  dsimp only at hs
  split at hs <;> try split at hs
  all_goals try split at hs
  all_goals
    cases hs
    try exact fun h => by cases h

/-- **Step lemma.** -/
theorem KeysSent.step (h : KeysSent s) (hkeys : KeysInv digest s)
    (hfresh : FreshKeys s a) (hscript : s.Scripted digest)
    (hs : Server.step digest s a = some t) : KeysSent t := by
  intro c conn key hconn hmem
  rcases lookup_of_step hs hconn with
    hold | ⟨-, -, rfl⟩ | ⟨l, conn₀, e, rfl, hold, hlocal, -⟩
  · exact h c conn key hold hmem
  · cases hmem
  · by_cases hsent : .sent (.auth key) ∈ conn₀.trace
    · have hlast := ((hscript c conn₀ hold).1.spoken.last_word
        (Or.inr ⟨key, hsent⟩) hlocal).2
      rw [hlast]
      exact h c conn₀ key hold hsent
    · -- the key is just being sent
      have hspoken := ((hscript.step hs) c conn hconn).1.spoken
      have hoffers := (hkeys.step hfresh hs).offers c conn key hconn
      obtain ⟨v, hkey, hpc | hpc | hpc⟩ := hspoken.key_sent hmem
      · exact hoffers (by rw [hpc, ← hkey]; rfl)
      · exact hoffers (by rw [hpc, ← hkey]; rfl)
      · exfalso
        obtain ⟨events, htrace, -, hquiet⟩ := localStep_trace hlocal
        have hnew : .sent (.auth key) ∈ events := by
          rw [htrace] at hmem
          exact (List.mem_append.mp hmem).resolve_left hsent
        cases l with
        | receive m nonce =>
            have hitem := item_of_mem hnew
            rw [hquiet.resolve_left (by simp [Local.message?])] at hitem
            cases hitem
        | proceed => exact not_aborted_of_proceed hlocal hpc
        | abort =>
            obtain ⟨conn', habort, heq⟩ := Option.map_eq_some_iff.mp hlocal
            cases heq
            unfold abort at habort
            split at habort <;> cases habort
            exact hsent (by simpa [Conn.goto] using hmem)
        | confirm =>
            obtain ⟨x, hx, heq⟩ := Option.map_eq_some_iff.mp hlocal
            cases heq
            exact hsent hmem
        | command =>
            simp only [Server.localStep] at hlocal
            split at hlocal <;> cases hlocal
            exact hsent hmem

end

end Rathole.Server

namespace Rathole.Tunnel

open Server (ConnId Nonce)
open ControlTask (isVisitorMode)

/-- The server makes no key a second time. -/
def FreshKeys (s : State) : Action → Prop
  | .server a => Server.FreshKeys s.server a
  | _ => True

section

variable {digest : Bytes → Digest} {config : ServerConfig}
  {service : ClientServiceConfig} {remoteAddr : String}
  {heartbeatTimeout : UInt64} {s s' : State} {a : Action}

/-- The server moves by its own steps. -/
theorem server_of_step (hfresh : FreshKeys s a)
    (hs : step digest service remoteAddr heartbeatTimeout s a = some s') :
    s'.server = s.server ∨ ∃ a', Server.FreshKeys s.server a' ∧
      Server.step digest s.server a' = some s'.server := by
  cases a with
  | server a =>
      simp only [step] at hs
      split at hs
      · cases hs
      · obtain ⟨server, hserver, rfl⟩ := Option.map_eq_some_iff.mp hs
        exact Or.inr ⟨a, hfresh, hserver⟩
  | command cmd =>
      simp only [step] at hs
      split at hs
      · split at hs <;> cases hs
        exact Or.inl rfl
      · cases hs
  | connect c =>
      simp only [step] at hs
      split at hs
      · obtain ⟨client, -, rfl⟩ := Option.map_eq_some_iff.mp hs
        exact Or.inl rfl
      · cases hs
  | client a =>
      simp only [step] at hs
      split at hs
      · cases hs
      · obtain ⟨client, -, rfl⟩ := Option.map_eq_some_iff.mp hs
        exact Or.inl rfl
  | deliver nonce =>
      simp only [step] at hs
      split at hs
      · obtain ⟨server, hserver, rfl⟩ := Option.map_eq_some_iff.mp hs
        exact Or.inr ⟨_, fun _ _ _ h => (by cases h), hserver⟩
      · cases hs
  | read =>
      simp only [step] at hs
      split at hs
      · obtain ⟨client, -, rfl⟩ := Option.map_eq_some_iff.mp hs
        exact Or.inl rfl
      · cases hs

/-- What is known of the server when its keys are fresh. -/
structure Keyed (digest : Bytes → Digest) (config : ServerConfig)
    (service : ClientServiceConfig) (s : State) : Prop where
  inv : Inv digest config service s
  sound : Server.Sound digest config s.server
  keys : Server.KeysInv digest s.server
  sent : Server.KeysSent s.server

theorem Keyed.init : Keyed digest config service (init digest config) where
  inv := inv_init config
  sound := Server.Sound.init
  keys := Server.KeysInv.init config
  sent _ _ _ hconn := by cases hconn

theorem Keyed.step (h : Keyed digest config service s) (hfresh : FreshKeys s a)
    (hs : step digest service remoteAddr heartbeatTimeout s a = some s') :
    Keyed digest config service s' := by
  refine ⟨h.inv.step hs, ?_, ?_, ?_⟩
  all_goals
    rcases server_of_step hfresh hs with heq | ⟨a', hfresh', hserver⟩
  · rw [heq]
    exact h.sound
  · exact h.sound.step hserver
  · rw [heq]
    exact h.keys
  · exact h.keys.step hfresh' hserver
  · rw [heq]
    exact h.sent
  · exact h.sent.step h.keys hfresh' h.inv.scripted hserver

/-- An established client shares its key with its own connection. -/
theorem Keyed.shared (h : Keyed digest config service s) {key : Digest}
    (hpc : s.client.pc = .forward key) :
    ∃ c conn, s.link = some c ∧ s.server.conns.lookup c = some conn ∧
      conn.key = some key ∧ (isVisitorMode service = false →
        ∃ d found, Server.Established digest s.server c (d, key, found)) := by
  have hon : s.client.pc.online = true := by
    rw [hpc]
    rfl
  obtain ⟨c, hc⟩ := Option.isSome_iff_exists.mp (h.inv.online hon)
  have hlink := h.inv.link c hc
  cases hmode : isVisitorMode service with
  | false =>
      obtain ⟨conn, nonce, found, hconn, hagreed⟩ :=
        hlink.established_control h.inv.scripted hpc hmode
      have hkey : conn.key = some key :=
        h.keys.offers c conn key hconn (by rw [hagreed.pc]; rfl)
      exact ⟨c, conn, hc, hconn, hkey, fun _ =>
        ⟨_, found, _, ⟨conn, hconn, hagreed.pc⟩, rfl⟩⟩
  | true =>
      obtain ⟨conn, pad, nonce, v, hconn, hagreed, rfl⟩ :=
        hlink.established_visitor h.inv.scripted h.inv.config hpc hmode
      have hkey : conn.key = some v.sessionNonce :=
        h.sent c conn _ hconn (by rw [hagreed.trace]; simp)
      exact ⟨c, conn, hc, hconn, hkey, fun hcontrol => by cases hcontrol⟩

end

/-- **A client's data channels are its own.** Whatever else happens at a server
that makes no key twice: the key of an established client finds the handle of
the client's own connection or none, and none only once that handle was dropped
or, for a visitor, before it is registered. And the streams that a handle has
been given are the client's if and only if they have said its key. -/
theorem data_channels_routed (digest : Bytes → Digest) (config : ServerConfig)
    (service : ClientServiceConfig) (remoteAddr : String)
    (heartbeatTimeout : UInt64) (as : List Action) (s : State) (key : Digest)
    (hrun : Runs.Run (step digest service remoteAddr heartbeatTimeout)
      (init digest config) as s)
    (hfresh : Runs.Meets (step digest service remoteAddr heartbeatTimeout)
      FreshKeys (init digest config) as)
    (hpc : s.client.pc = .forward key) :
    ∃ c, s.link = some c ∧
      (∀ handle, s.server.controlChannels.get2 key = some handle →
        handle.owner = c) ∧
      ((∃ d found, Server.Established digest s.server c (d, key, found)) →
        (∀ cause, (c, cause) ∉ s.server.dropped) →
          ∃ handle, s.server.controlChannels.get2 key = some handle) ∧
      (isVisitorMode service = false →
        ∃ d found, Server.Established digest s.server c (d, key, found)) ∧
      ∀ owner stream, stream ∈ (s.server.dataChannel owner).sent →
        (owner = c ↔ ∃ conn, s.server.conns.lookup stream = some conn ∧
          conn.trace = Server.dataEvents key) := by
  have h : Keyed digest config service s :=
    Runs.run_preserves_of_meets (fun _ _ _ h hC hs => h.step hC hs)
      Keyed.init hfresh hrun
  obtain ⟨c, conn, hc, hconn, hkey, hcontrol⟩ := h.shared hpc
  -- whoever has established a session with the key is the client's connection
  have howner {owner : ConnId} {d : Digest} {found : ServerServiceConfig}
      (hest : Server.Established digest s.server owner (d, key, found)) :
      owner = c := by
    obtain ⟨conn', hconn', hoffers⟩ := hest.offers
    exact h.keys.distinct owner c conn' conn key hconn' hconn
      (h.keys.offers owner conn' key hconn' hoffers) hkey
  refine ⟨c, hc, ?_, ?_, hcontrol, ?_⟩
  · intro handle hget
    obtain ⟨d, hentry⟩ := MultiMap.get2_eq_some.mp hget
    exact howner (h.keys.entries d key handle hentry)
  · rintro ⟨d, found, hest⟩ hkept
    obtain ⟨handle, hentry, -⟩ := h.keys.found c d key found hest hkept
    exact ⟨handle, MultiMap.get2_eq_some.mpr ⟨d, hentry⟩⟩
  · intro owner stream hstream
    obtain ⟨d, key', found, conn', hest, hconn', htrace⟩ :=
      h.sound.handedWithKey hstream
    constructor
    · rintro rfl
      obtain ⟨conn₁, hconn₁, hoffers⟩ := hest.offers
      cases hconn.symm.trans hconn₁
      have hkey' := h.keys.offers _ conn key' hconn hoffers
      cases hkey.symm.trans hkey'
      exact ⟨conn', hconn', htrace⟩
    · rintro ⟨conn₁, hconn₁, htrace₁⟩
      cases hconn'.symm.trans hconn₁
      rw [htrace] at htrace₁
      obtain rfl : key' = key := by
        simpa [Server.dataEvents] using htrace₁
      exact howner hest

def keyFresh (s : State) : Action → Bool
  | .server a => Server.keyFresh s.server a
  | _ => true

theorem freshKeys_of_keyFresh {s : State} {a : Action}
    (h : keyFresh s a = true) : FreshKeys s a := by
  cases a with
  | server a => exact Server.freshKeys_of_keyFresh h
  | _ => exact True.intro

/-- The established client brings a data channel. -/
def bringWeb : List Action :=
  openWeb ++ Server.bringData.map Action.server

theorem data_channels_routed_web : ∃ s,
    Runs.Run (step Server.sampleDigest webService "127.0.0.1:2333" 40)
      (init Server.sampleDigest Server.sampleConfig) bringWeb s ∧
    1 ∈ (s.server.dataChannel 0).sent ∧
    ∃ conn, s.server.conns.lookup 1 = some conn ∧
      conn.trace = Server.dataEvents Server.webKey := by
  obtain ⟨s, hrun, hpc, hlink, hsent⟩ : ∃ s,
      Runs.Run (step Server.sampleDigest webService "127.0.0.1:2333" 40)
        (init Server.sampleDigest Server.sampleConfig) bringWeb s ∧
      s.client.pc = .forward Server.webKey ∧ s.link = some 0 ∧
      (s.server.dataChannel 0).sent = [1] := ⟨_, rfl, rfl, rfl, rfl⟩
  have hfresh : Runs.Meets
      (step Server.sampleDigest webService "127.0.0.1:2333" 40) FreshKeys
      (init Server.sampleDigest Server.sampleConfig) bringWeb :=
    Runs.Meets.mono (fun s a h => freshKeys_of_keyFresh h)
      (show Runs.Meets
        (step Server.sampleDigest webService "127.0.0.1:2333" 40)
        (fun s a => keyFresh s a = true)
        (init Server.sampleDigest Server.sampleConfig) bringWeb by decide)
  obtain ⟨c, hc, -, -, -, hstreams⟩ := data_channels_routed Server.sampleDigest
    Server.sampleConfig webService "127.0.0.1:2333" 40 bringWeb s
    Server.webKey hrun hfresh hpc
  cases hlink.symm.trans hc
  have hmem : 1 ∈ (s.server.dataChannel 0).sent := by
    rw [hsent]
    exact List.mem_singleton_self 1
  exact ⟨s, hrun, hmem, (hstreams 0 1 hmem).mp rfl⟩

end Rathole.Tunnel
