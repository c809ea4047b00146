import Rathole.Server.Interleaving

/-!
# Who is registered, and who gets data

A handle is in the control channels only because its owner has answered a
nonce of its own with the right digest; a stream is in a handle's data channel
only because it has sent the handle's key; and a connection that has not
passed its check leaves the control channels as they are.
-/

namespace Rathole.Server

open Runs

section

variable (digest : Bytes → Digest) (config : ServerConfig)

/-- The owner of the entry has proved the token of the service it was found
to ask for, or to be a user who may bind the port of the entry's address. In
both cases the proof is an answer to the nonce the server has drawn for it
and sent before. -/
def Registered (s : State) (d : Digest) (k : Nonce) (h : Handle) : Prop :=
  ∃ conn, s.conns.lookup h.owner = some conn ∧
    ((∃ before, Authenticated digest before d k h.service ∧
        conn.trace = before ++ [.sent (.ack .ok)]) ∨
      ∃ v before, Admitted digest config before v ∧
        conn.trace = before ++ [.sent (.visitorAck .ok), .sent (.auth k)] ∧
        d = visitorDigest digest v ∧ k = v.sessionNonce ∧
        h.service.bindAddr = v.auth.bindAddr)

/-- All that `stream` has sent is a hello with the key of the handle that was
made for `owner`. -/
def HandedWithKey (s : State) (owner stream : ConnId) : Prop :=
  ∃ d key service conn, Established digest s owner (d, key, service) ∧
    s.conns.lookup stream = some conn ∧ conn.trace = dataEvents key

/-- The connection has passed the check of its handshake. -/
def CheckPassed (s : State) (c : ConnId) : Prop :=
  ∃ conn, s.conns.lookup c = some conn ∧
    ((∃ d k service, Authenticated digest conn.trace d k service) ∨
      ∃ v before after, Admitted digest config before v ∧
        conn.trace = before ++ after)

/-- The invariant: every connection is where its events say, every entry
belongs to an established session, and so does every stream handed over. -/
structure Sound (s : State) : Prop where
  config_eq : s.config = config
  conns : ∀ c conn, s.conns.lookup c = some conn → conn.Ok digest config
  entries : EntriesEstablished digest s
  handing : ∀ c conn key owner, s.conns.lookup c = some conn →
    conn.pc = .handOver key owner →
      ∃ d service, Established digest s owner (d, key, service)
  handed : ∀ owner stream, stream ∈ (s.dataChannel owner).sent →
    ∃ d key service, Established digest s owner (d, key, service) ∧
      Finished s stream (.handedOver key owner)

variable {digest config} {s t : State} {a : Action}

theorem dataChannel_install {d : Digest} {k : Nonce} {h : Handle}
    {owner : ConnId} :
    (s.install d k h).dataChannel owner = s.dataChannel owner := by
  unfold State.dataChannel
  rw [install_dataChannels]

/-- A stream in a data channel was there, or is handed over by this step. -/
theorem sent_of_step (hstep : step digest s a = some t) {owner stream : ConnId}
    (hsent : stream ∈ (t.dataChannel owner).sent) :
    stream ∈ (s.dataChannel owner).sent ∨
      ∃ conn key, s.conns.lookup stream = some conn ∧
        conn.pc = .handOver key owner ∧
        Finished t stream (.handedOver key owner) := by
  cases shape_step hstep with
  | accept hmain hnone => exact Or.inl hsent
  | conn hconn hlocal =>
      cases shape_localStep hlocal with
      | quiet hquiet => exact Or.inl hsent
      | drop hlock hpc => exact Or.inl hsent
      | install hpc hpc' hkey =>
          have hch : stream ∈ ((s.install _ _ _).dataChannel owner).sent := hsent
          rw [dataChannel_install] at hch
          exact Or.inl hch
      | replace hlock hpc hpc' hkey =>
          have hch : stream ∈ (((s.drop _ _).install _ _ _).dataChannel
              owner).sent := hsent
          rw [dataChannel_install] at hch
          exact Or.inl hch
      | hand hpc hpc' hkey =>
          rename_i c conn₀ conn' key owner₀
          have hch : stream ∈ ((s.setDataChannel owner₀
              { s.dataChannel owner₀ with
                sent := (s.dataChannel owner₀).sent ++ [c] }).dataChannel
                  owner).sent := hsent
          rw [dataChannel_setDataChannel] at hch
          split at hch
          · rename_i heq
            subst heq
            rcases List.mem_append.mp hch with hold | hnew
            · exact Or.inl hold
            · obtain rfl := List.mem_singleton.mp hnew
              exact Or.inr ⟨conn₀, key, hconn, hpc, conn',
                lookup_setConn_self, hpc'⟩
          · exact Or.inl hch
  | pool ha hch =>
      left
      rw [dataChannel_setDataChannel] at hsent
      split at hsent
      · rename_i heq
        rw [heq, ← hch]
        exact hsent
      · exact hsent
  | reload hmain =>
      unfold startReload at hsent
      split at hsent <;> exact Or.inl hsent
  | main hshape => cases hshape <;> exact Or.inl hsent
  | shutdown hmain => exact Or.inl hsent

theorem Sound.init : Sound digest config (init digest config) where
  config_eq := rfl
  conns _ _ h := by cases h
  entries := entriesEstablished_init config
  handing _ _ _ _ h := by cases h
  handed _ _ h := by cases h

theorem Sound.step (hs : Sound digest config s)
    (hstep : Server.step digest s a = some t) : Sound digest config t where
  config_eq := (config_step hstep).trans hs.config_eq
  conns := by
    intro c conn hconn
    rcases lookup_of_step hstep hconn with
      hold | ⟨-, -, rfl⟩ | ⟨l, conn₀, e, -, hconn₀, hlocal, -⟩
    · exact hs.conns c conn hold
    · exact rfl
    · have hok := hs.conns c conn₀ hconn₀
      rw [← hs.config_eq] at hok ⊢
      exact hok.localStep hlocal
  entries := hs.entries.step hstep
  handing := by
    intro c conn key owner hconn hpc
    have hbefore : ∃ d service, Established digest s owner (d, key, service) := by
      rcases lookup_of_step hstep hconn with
        hold | ⟨-, -, rfl⟩ | ⟨l, conn₀, e, -, hconn₀, hlocal, -⟩
      · exact hs.handing c conn key owner hold hpc
      · cases hpc
      · cases shape_localStep hlocal with
        | quiet hquiet =>
            -- the handle was found under the key, so the entry is its owner's
            rcases hquiet.reads key owner hpc with hsame | ⟨h, hget, rfl⟩
            · exact hs.handing c conn₀ key owner hconn₀ (hsame.symm.trans hpc)
            · obtain ⟨d, hentry⟩ := MultiMap.get2_eq_some.mp hget
              exact ⟨d, h.service, hs.entries d key h hentry⟩
        | drop hlock hpc' => cases hpc
        | install hpc₀ hpc' hkey =>
            rw [hpc'] at hpc
            cases hpc
        | replace hlock hpc₀ hpc' hkey =>
            rw [hpc'] at hpc
            cases hpc
        | hand hpc₀ hpc' hkey =>
            rw [hpc'] at hpc
            cases hpc
    obtain ⟨d, service, hest⟩ := hbefore
    exact ⟨d, service, hest.step hstep⟩
  handed := by
    intro owner stream hsent
    rcases sent_of_step hstep hsent with hold | ⟨conn, key, hconn, hpc, hfin⟩
    · obtain ⟨d, key, service, hest, hfin⟩ := hs.handed owner stream hold
      exact ⟨d, key, service, hest.step hstep, hfin.step hstep⟩
    · obtain ⟨d, service, hest⟩ := hs.handing stream conn key owner hconn hpc
      exact ⟨d, key, service, hest.step hstep, hfin⟩

theorem Sound.registered (hs : Sound digest config s) {d : Digest} {k : Nonce}
    {h : Handle} (he : s.controlChannels.Entry d k h) :
    Registered digest config s d k h := by
  obtain ⟨o, ⟨conn, hconn, hpc⟩, hx⟩ := hs.entries d k h he
  have hok := hs.conns _ conn hconn
  refine ⟨conn, hconn, ?_⟩
  unfold Conn.Ok at hok
  rw [hpc] at hok
  cases o with
  | controlEstablished d' k' service =>
      cases hx
      exact Or.inl hok
  | visitorEstablished v =>
      have hx : (visitorDigest digest v, v.sessionNonce, visitorService v) =
          (d, k, h.service) := Option.some.inj hx
      rw [Prod.mk.injEq, Prod.mk.injEq] at hx
      obtain ⟨rfl, rfl, hservice⟩ := hx
      obtain ⟨before, hadm, htrace⟩ := hok
      refine Or.inr ⟨v, before, hadm, htrace, rfl, rfl, ?_⟩
      rw [← hservice]
      rfl
  | handedOver key owner => cases hx
  | warned message => cases hx
  | bailed message => cases hx
  | aborted => cases hx

theorem Sound.handedWithKey (hs : Sound digest config s) {owner stream : ConnId}
    (hsent : stream ∈ (s.dataChannel owner).sent) :
    HandedWithKey digest s owner stream := by
  obtain ⟨d, key, service, hest, conn, hconn, hpc⟩ :=
    hs.handed owner stream hsent
  have hok := hs.conns stream conn hconn
  unfold Conn.Ok at hok
  rw [hpc] at hok
  exact ⟨d, key, service, conn, hest, hconn, hok⟩

/-- Only after its check does a connection touch the control channels. -/
theorem Sound.unchanged (hs : Sound digest config s) {c : ConnId} {l : Local}
    (hstep : Server.step digest s (.conn c l) = some t)
    (hfail : ¬ CheckPassed digest config s c) :
    t.controlChannels = s.controlChannels := by
  cases shape_step hstep with
  | conn hconn hlocal =>
      have hok := hs.conns _ _ hconn
      unfold Conn.Ok at hok
      cases shape_localStep hlocal with
      | quiet hquiet => rfl
      | drop hlock hpc =>
          rw [hpc] at hok
          exact absurd ⟨_, hconn, Or.inl ⟨_, _, _, hok⟩⟩ hfail
      | install hpc hpc' hkey =>
          rw [hpc] at hok
          exact absurd ⟨_, hconn, Or.inl ⟨_, _, _, hok⟩⟩ hfail
      | replace hlock hpc hpc' hkey =>
          rw [hpc] at hok
          obtain ⟨before, hadm, htrace⟩ := hok
          exact absurd ⟨_, hconn, Or.inr ⟨_, before, _, hadm, htrace⟩⟩ hfail
      | hand hpc hpc' hkey => rfl
  | pool ha hch => rcases ha with ha | ha <;> cases ha

end

/-- **Only authenticated and authorised peers are registered**, whatever the
peers send and however the tasks are interleaved. -/
theorem only_authenticated_registered (digest : Bytes → Digest)
    (config : ServerConfig) (actions : List Action) (s : State)
    (hrun : Run (step digest) (init digest config) actions s) :
    (∀ d k h, s.controlChannels.Entry d k h →
      Registered digest config s d k h) ∧
    (∀ owner stream, stream ∈ (s.dataChannel owner).sent →
      HandedWithKey digest s owner stream) ∧
    (∀ c l t, step digest s (.conn c l) = some t →
      ¬ CheckPassed digest config s c →
        t.controlChannels = s.controlChannels) := by
  have hs : Sound digest config s :=
    run_preserves (fun s a t hs hstep => hs.step hstep) Sound.init hrun
  refine ⟨?_, ?_, ?_⟩
  · intro d k h he
    exact hs.registered he
  · intro owner stream hsent
    exact hs.handedWithKey hsent
  · intro c l t hstep hfail
    exact hs.unchanged hstep hfail

/-- Connection 1 brings a data channel. -/
def bringData : List Action :=
  [.accept 1, .conn 1 (.receive (.hello (.dataChannelHello 1 webKey)) zeros),
    .conn 1 .proceed, .conn 1 .proceed]

theorem only_authenticated_registered_web : ∃ s,
    Run (step sampleDigest) (init sampleDigest sampleConfig)
      (askForWeb ++ registerWeb ++ bringData) s ∧
    Registered sampleDigest sampleConfig s webDigest webKey
      ⟨0, sampleService, 30⟩ ∧
    HandedWithKey sampleDigest s 0 1 := by
  obtain ⟨s, hrun, hentry, hsent⟩ : ∃ s,
      Run (step sampleDigest) (init sampleDigest sampleConfig)
        (askForWeb ++ registerWeb ++ bringData) s ∧
      s.controlChannels.Entry webDigest webKey ⟨0, sampleService, 30⟩ ∧
      (s.dataChannel 0).sent = [1] := ⟨_, rfl, ⟨0, rfl⟩, rfl⟩
  obtain ⟨hreg, hdata, -⟩ :=
    only_authenticated_registered sampleDigest sampleConfig _ s hrun
  exact ⟨s, hrun, hreg _ _ _ hentry, hdata 0 1 (by rw [hsent]; simp)⟩

end Rathole.Server
