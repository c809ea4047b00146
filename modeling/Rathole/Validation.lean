import Rathole.Client.HotReload
import Rathole.ConfigWatcher

/-!
# Validation is a normal form

The validation of a block does two things at once: it refuses a block that
cannot run, and it fills in what a service leaves open. Both are stated here
without the loop (`Acceptable`, `Normalised`), so that neither can depend on
the order in which the loop meets the services; and a block that has been
filled in stays as it is.

The rest of the program relies on the result: names are keys, owners and tokens
are there, and no retry interval is missing when a handle is made.
-/

namespace Rathole

/-! ## What is accepted -/

structure TransportConfig.Valid (config : TransportConfig) : Prop where
  proxy : ∀ u, config.tcp.proxy = some u →
    u.scheme = "socks5" ∨ u.scheme = "http"
  psk : config.transportType = .udp →
    ∃ udp, config.udp = some udp ∧ udp.psk ≠ ""

/-- A service whose own user is `user` belongs to `owner`, who is defined. -/
structure OwnedBy (users : HashMap String UserConfig) (user : Option String)
    (owner : String) : Prop where
  named : user = some owner ∨ (user = none ∧ owner = "default")
  defined : ∃ u, users.lookup owner = some u

/-- The token is the service's own, or else the fallback. -/
def TokenOf (own fallback : Option MaskedString) (t : MaskedString) : Prop :=
  own = some t ∨ (own = none ∧ fallback = some t)

/-- Every service can be given an owner and a token. -/
structure ServerConfig.Acceptable (server : ServerConfig) : Prop where
  services : ∀ name s, server.services.lookup name = some s →
    ∃ owner u t, OwnedBy server.users s.user owner ∧
      server.users.lookup owner = some u ∧ TokenOf s.token u.token t
  transport : server.transport.Valid

structure ClientConfig.Acceptable (client : ClientConfig) : Prop where
  services : ∀ name s, client.services.lookup name = some s →
    ∃ t, TokenOf s.token client.token t
  transport : client.transport.Valid

/-! ## What is left -/

/-- The services are filled in, and nothing else is touched. -/
structure ServerConfig.Normalised (server server' : ServerConfig) : Prop where
  rest : server' = { server with services := server'.services }
  services : ∀ name s', server'.services.lookup name = some s' ↔
    ∃ s owner u t, server.services.lookup name = some s ∧
      OwnedBy server.users s.user owner ∧
      server.users.lookup owner = some u ∧ TokenOf s.token u.token t ∧
      s' = { s with name := name, user := some owner, token := some t }

structure ClientConfig.Normalised (client client' : ClientConfig) : Prop where
  rest : client' = { client with services := client'.services }
  services : ∀ name s', client'.services.lookup name = some s' ↔
    ∃ s t, client.services.lookup name = some s ∧
      TokenOf s.token client.token t ∧
      s' = { s with
        name := name
        user := some ((s.user.or client.user).getD "default")
        token := some t
        retryInterval := some (s.retryInterval.getD client.retryInterval) }

/-! ## The checks, one by one -/

theorem validateTransportConfig_ok_iff {config : TransportConfig} :
    validateTransportConfig config = .ok () ↔ config.Valid := by
  have hvalid : config.Valid ↔
      (∀ u, config.tcp.proxy = some u → u.scheme = "socks5" ∨ u.scheme = "http") ∧
      (config.transportType = .udp →
        ∃ udp, config.udp = some udp ∧ udp.psk ≠ "") :=
    ⟨fun h => ⟨h.proxy, h.psk⟩, fun h => ⟨h.1, h.2⟩⟩
  rw [hvalid]
  unfold validateTransportConfig
  obtain ⟨transportType, ⟨nodelay, secs, interval, proxy⟩, noise, udp⟩ := config
  -- the proxy is checked first, then the transport
  rcases proxy with - | u
  · cases transportType with
    | tcp => simp
    | udp =>
        rcases udp with - | udp
        · simp
        · by_cases hpsk : udp.psk = "" <;> simp [hpsk]
  · by_cases hscheme : u.scheme = "socks5" ∨ u.scheme = "http"
    · cases transportType with
      | tcp => simp [hscheme]
      | udp =>
          rcases udp with - | udp
          · simp [hscheme]
          · by_cases hpsk : udp.psk = "" <;> simp [hscheme, hpsk]
    · simp [hscheme]

theorem serviceOwner_ok_iff {users : HashMap String UserConfig}
    {name owner : String} {user : Option String} :
    serviceOwner users name user = .ok owner ↔ OwnedBy users user owner := by
  have howned : OwnedBy users user owner ↔
      (user = some owner ∨ (user = none ∧ owner = "default")) ∧
        ∃ u, users.lookup owner = some u :=
    ⟨fun h => ⟨h.named, h.defined⟩, fun h => ⟨h.1, h.2⟩⟩
  rw [howned, ← Option.isSome_iff_exists]
  unfold serviceOwner
  cases user with
  | some userName =>
      dsimp only
      by_cases hdef : (users.lookup userName).isSome
      · rw [if_pos hdef]
        constructor
        · intro h
          cases h
          exact ⟨Or.inl rfl, hdef⟩
        · rintro ⟨h | ⟨h, -⟩, -⟩
          · cases h
            rfl
          · cases h
      · rw [if_neg hdef]
        constructor
        · intro h
          cases h
        · rintro ⟨h | ⟨h, -⟩, hdef'⟩
          · cases h
            exact absurd hdef' hdef
          · cases h
  | none =>
      dsimp only
      by_cases hdef : (users.lookup "default").isSome
      · rw [if_pos hdef]
        constructor
        · intro h
          cases h
          exact ⟨Or.inr ⟨rfl, rfl⟩, hdef⟩
        · rintro ⟨h | ⟨-, rfl⟩, -⟩
          · cases h
          · rfl
      · rw [if_neg hdef]
        constructor
        · intro h
          cases h
        · rintro ⟨h | ⟨-, rfl⟩, hdef'⟩
          · cases h
          · exact absurd hdef' hdef

theorem tokenOf_iff {own fallback : Option MaskedString} {t : MaskedString} :
    own.or fallback = some t ↔ TokenOf own fallback t := by
  unfold TokenOf
  rw [Option.or_eq_some_iff]

theorem validateServerService_ok_iff {users : HashMap String UserConfig}
    {name : String} {s s' : ServerServiceConfig} :
    validateServerService users name s = .ok s' ↔
      ∃ owner u t, OwnedBy users s.user owner ∧
        users.lookup owner = some u ∧ TokenOf s.token u.token t ∧
        s' = { s with name := name, user := some owner, token := some t } := by
  unfold validateServerService
  cases howner : serviceOwner users name s.user with
  | error e =>
      constructor
      · intro h
        cases h
      · rintro ⟨owner, u, t, howned, -⟩
        rw [serviceOwner_ok_iff.mpr howned] at howner
        cases howner
  | ok owner =>
      have howned := serviceOwner_ok_iff.mp howner
      obtain ⟨u, hu⟩ := howned.defined
      dsimp only
      rw [hu, Option.bind_some]
      constructor
      · intro h
        split at h
        · cases h
        · rename_i t ht
          cases h
          exact ⟨owner, u, t, howned, hu, tokenOf_iff.mp ht, rfl⟩
      · rintro ⟨owner', u', t, howned', hu', ht, rfl⟩
        have hsame : owner = owner' := by
          rw [serviceOwner_ok_iff.mpr howned'] at howner
          exact (Except.ok.inj howner).symm
        subst hsame
        rw [hu] at hu'
        cases hu'
        rw [tokenOf_iff.mpr ht]

theorem validateClientService_ok_iff {client : ClientConfig} {name : String}
    {s s' : ClientServiceConfig} :
    validateClientService client name s = .ok s' ↔
      ∃ t, TokenOf s.token client.token t ∧
        s' = { s with
          name := name
          user := some ((s.user.or client.user).getD "default")
          token := some t
          retryInterval := some (s.retryInterval.getD client.retryInterval) } := by
  have hretry : s.retryInterval.or (some client.retryInterval) =
      some (s.retryInterval.getD client.retryInterval) := by
    cases s.retryInterval <;> rfl
  unfold validateClientService
  dsimp only
  rw [hretry]
  constructor
  · intro h
    split at h
    · cases h
    · rename_i t ht
      cases h
      exact ⟨t, tokenOf_iff.mp ht, rfl⟩
  · rintro ⟨t, ht, rfl⟩
    rw [tokenOf_iff.mpr ht]

/-! ## The blocks -/

theorem validateServerConfig_ok_iff {server server' : ServerConfig} :
    validateServerConfig server = .ok server' ↔
      ∃ services, HashMap.tryUpdateAll (validateServerService server.users)
          server.services = .ok services ∧
        server.transport.Valid ∧
        server' = { server with services := services } := by
  unfold validateServerConfig
  rw [← validateTransportConfig_ok_iff]
  cases HashMap.tryUpdateAll (validateServerService server.users)
      server.services with
  | error e => simp
  | ok services =>
      cases validateTransportConfig server.transport with
      | error e => simp
      | ok u => simp [eq_comm]

theorem validateClientConfig_ok_iff {client client' : ClientConfig} :
    validateClientConfig client = .ok client' ↔
      ∃ services, HashMap.tryUpdateAll (validateClientService client)
          client.services = .ok services ∧
        client.transport.Valid ∧
        client' = { client with services := services } := by
  unfold validateClientConfig
  rw [← validateTransportConfig_ok_iff]
  cases HashMap.tryUpdateAll (validateClientService client)
      client.services with
  | error e => simp
  | ok services =>
      cases validateTransportConfig client.transport with
      | error e => simp
      | ok u => simp [eq_comm]

theorem server_acceptable_iff {server : ServerConfig} :
    (∃ server', validateServerConfig server = .ok server') ↔
      server.Acceptable := by
  constructor
  · rintro ⟨server', h⟩
    obtain ⟨services, hservices, hvalid, -⟩ := validateServerConfig_ok_iff.mp h
    refine ⟨?_, hvalid⟩
    intro name s hs
    obtain ⟨s', hs'⟩ :=
      HashMap.tryUpdateAll_ok_iff.mp ⟨services, hservices⟩ name s hs
    obtain ⟨owner, u, t, howned, hu, ht, -⟩ :=
      validateServerService_ok_iff.mp hs'
    exact ⟨owner, u, t, howned, hu, ht⟩
  · intro h
    obtain ⟨services, hservices⟩ : ∃ services, HashMap.tryUpdateAll
        (validateServerService server.users) server.services =
          .ok services := by
      apply HashMap.tryUpdateAll_ok_iff.mpr
      intro name s hs
      obtain ⟨owner, u, t, howned, hu, ht⟩ := h.services name s hs
      exact ⟨_, validateServerService_ok_iff.mpr
        ⟨owner, u, t, howned, hu, ht, rfl⟩⟩
    exact ⟨_, validateServerConfig_ok_iff.mpr
      ⟨services, hservices, h.transport, rfl⟩⟩

theorem client_acceptable_iff {client : ClientConfig} :
    (∃ client', validateClientConfig client = .ok client') ↔
      client.Acceptable := by
  constructor
  · rintro ⟨client', h⟩
    obtain ⟨services, hservices, hvalid, -⟩ := validateClientConfig_ok_iff.mp h
    refine ⟨?_, hvalid⟩
    intro name s hs
    obtain ⟨s', hs'⟩ :=
      HashMap.tryUpdateAll_ok_iff.mp ⟨services, hservices⟩ name s hs
    obtain ⟨t, ht, -⟩ := validateClientService_ok_iff.mp hs'
    exact ⟨t, ht⟩
  · intro h
    obtain ⟨services, hservices⟩ : ∃ services, HashMap.tryUpdateAll
        (validateClientService client) client.services = .ok services := by
      apply HashMap.tryUpdateAll_ok_iff.mpr
      intro name s hs
      obtain ⟨t, ht⟩ := h.services name s hs
      exact ⟨_, validateClientService_ok_iff.mpr ⟨t, ht, rfl⟩⟩
    exact ⟨_, validateClientConfig_ok_iff.mpr
      ⟨services, hservices, h.transport, rfl⟩⟩

theorem server_normalised {server server' : ServerConfig}
    (h : validateServerConfig server = .ok server') :
    server.Normalised server' := by
  obtain ⟨services, hservices, -, rfl⟩ := validateServerConfig_ok_iff.mp h
  refine ⟨rfl, ?_⟩
  intro name s'
  rw [HashMap.lookup_tryUpdateAll hservices]
  constructor
  · rintro ⟨s, hs, hval⟩
    obtain ⟨owner, u, t, howned, hu, ht, rfl⟩ :=
      validateServerService_ok_iff.mp hval
    exact ⟨s, owner, u, t, hs, howned, hu, ht, rfl⟩
  · rintro ⟨s, owner, u, t, hs, howned, hu, ht, rfl⟩
    exact ⟨s, hs, validateServerService_ok_iff.mpr
      ⟨owner, u, t, howned, hu, ht, rfl⟩⟩

theorem client_normalised {client client' : ClientConfig}
    (h : validateClientConfig client = .ok client') :
    client.Normalised client' := by
  obtain ⟨services, hservices, -, rfl⟩ := validateClientConfig_ok_iff.mp h
  refine ⟨rfl, ?_⟩
  intro name s'
  rw [HashMap.lookup_tryUpdateAll hservices]
  constructor
  · rintro ⟨s, hs, hval⟩
    obtain ⟨t, ht, rfl⟩ := validateClientService_ok_iff.mp hval
    exact ⟨s, t, hs, ht, rfl⟩
  · rintro ⟨s, t, hs, ht, rfl⟩
    exact ⟨s, hs, validateClientService_ok_iff.mpr ⟨t, ht, rfl⟩⟩

/-! ## The order of the maps -/

theorem validateServerConfig_same {a b a' : ServerConfig} (hab : a.Same b)
    (h : validateServerConfig a = .ok a') :
    ∃ b', validateServerConfig b = .ok b' ∧ a'.Same b' := by
  obtain ⟨services, hservices, hvalid, rfl⟩ := validateServerConfig_ok_iff.mp h
  have hbody : ∀ name s, validateServerService a.users name s =
      validateServerService b.users name s := by
    intro name s
    unfold validateServerService serviceOwner
    simp only [hab.users _]
  obtain ⟨services', hservices', hsame⟩ :=
    HashMap.tryUpdateAll_same hbody hab.services hservices
  refine ⟨{ b with services := services' }, ?_, ?_⟩
  · exact validateServerConfig_ok_iff.mpr
      ⟨services', hservices', hab.transport ▸ hvalid, rfl⟩
  · exact ⟨hab.bindAddr, hab.users, hsame, hab.transport,
      hab.heartbeatInterval⟩

theorem validateClientConfig_same {a b a' : ClientConfig} (hab : a.Same b)
    (h : validateClientConfig a = .ok a') :
    ∃ b', validateClientConfig b = .ok b' ∧ a'.Same b' := by
  obtain ⟨services, hservices, hvalid, rfl⟩ := validateClientConfig_ok_iff.mp h
  have hbody : ∀ name s, validateClientService a name s =
      validateClientService b name s := by
    intro name s
    unfold validateClientService
    rw [hab.user, hab.token, hab.retryInterval]
  obtain ⟨services', hservices', hsame⟩ :=
    HashMap.tryUpdateAll_same hbody hab.services hservices
  refine ⟨{ b with services := services' }, ?_, ?_⟩
  · exact validateClientConfig_ok_iff.mpr
      ⟨services', hservices', hab.transport ▸ hvalid, rfl⟩
  · exact ⟨hab.remoteAddr, hab.user, hab.token, hab.preferIpv6, hsame,
      hab.transport, hab.heartbeatTimeout, hab.retryInterval⟩

theorem ServerConfig.Same.symm {a b : ServerConfig} (h : a.Same b) :
    b.Same a where
  bindAddr := h.bindAddr.symm
  users := fun name => (h.users name).symm
  services := fun name => (h.services name).symm
  transport := h.transport.symm
  heartbeatInterval := h.heartbeatInterval.symm

theorem ClientConfig.Same.symm {a b : ClientConfig} (h : a.Same b) :
    b.Same a where
  remoteAddr := h.remoteAddr.symm
  user := h.user.symm
  token := h.token.symm
  preferIpv6 := h.preferIpv6.symm
  services := fun name => (h.services name).symm
  transport := h.transport.symm
  heartbeatTimeout := h.heartbeatTimeout.symm
  retryInterval := h.retryInterval.symm

theorem server_acceptable_congr {a b : ServerConfig} (hab : a.Same b) :
    a.Acceptable ↔ b.Acceptable := by
  rw [← server_acceptable_iff, ← server_acceptable_iff]
  constructor
  · rintro ⟨a', h⟩
    obtain ⟨b', hb, -⟩ := validateServerConfig_same hab h
    exact ⟨b', hb⟩
  · rintro ⟨b', h⟩
    obtain ⟨a', ha, -⟩ := validateServerConfig_same hab.symm h
    exact ⟨a', ha⟩

theorem client_acceptable_congr {a b : ClientConfig} (hab : a.Same b) :
    a.Acceptable ↔ b.Acceptable := by
  rw [← client_acceptable_iff, ← client_acceptable_iff]
  constructor
  · rintro ⟨a', h⟩
    obtain ⟨b', hb, -⟩ := validateClientConfig_same hab h
    exact ⟨b', hb⟩
  · rintro ⟨b', h⟩
    obtain ⟨a', ha, -⟩ := validateClientConfig_same hab.symm h
    exact ⟨a', ha⟩

/-! ## Validating again -/

theorem validateServerConfig_stable {server server' : ServerConfig}
    (h : validateServerConfig server = .ok server') :
    validateServerConfig server' = .ok server' := by
  obtain ⟨services, hservices, hvalid, rfl⟩ := validateServerConfig_ok_iff.mp h
  refine validateServerConfig_ok_iff.mpr ⟨services, ?_, hvalid, rfl⟩
  apply HashMap.tryUpdateAll_fixed
  intro name s' hs'
  obtain ⟨s, hs, hval⟩ := (HashMap.lookup_tryUpdateAll hservices).mp hs'
  obtain ⟨owner, u, t, howned, hu, -, rfl⟩ :=
    validateServerService_ok_iff.mp hval
  exact validateServerService_ok_iff.mpr
    ⟨owner, u, t, ⟨Or.inl rfl, howned.defined⟩, hu, Or.inl rfl, rfl⟩

theorem validateClientConfig_stable {client client' : ClientConfig}
    (h : validateClientConfig client = .ok client') :
    validateClientConfig client' = .ok client' := by
  obtain ⟨services, hservices, hvalid, rfl⟩ := validateClientConfig_ok_iff.mp h
  refine validateClientConfig_ok_iff.mpr ⟨services, ?_, hvalid, rfl⟩
  apply HashMap.tryUpdateAll_fixed
  intro name s' hs'
  obtain ⟨s, hs, hval⟩ := (HashMap.lookup_tryUpdateAll hservices).mp hs'
  obtain ⟨t, -, rfl⟩ := validateClientService_ok_iff.mp hval
  exact validateClientService_ok_iff.mpr ⟨t, Or.inl rfl, rfl⟩

/-! ## What relies on it -/

/-- The events of a block are deletions, and additions of its services. -/
theorem mem_blockEvents {T : Type} [InstanceConfig T] {old new : Option T}
    {e : ConfigChange} (he : e ∈ (blockEvents old new).getD []) :
    (∃ name, e = InstanceConfig.serviceDeleteChange T name) ∨
      ∃ block name s, new = some block ∧
        (InstanceConfig.getServices block).lookup name = some s ∧
        e = InstanceConfig.serviceAddChange (T := T) s := by
  unfold blockEvents at he
  split at he
  · rename_i o n
    split at he
    · cases he
    · unfold calculateInstanceConfigEvents at he
      split at he
      · rcases List.mem_append.mp he with hdel | hadd
        · obtain ⟨name, -, rfl⟩ := List.mem_map.mp hdel
          exact Or.inl ⟨name, rfl⟩
        · obtain ⟨a, ha, rfl⟩ := List.mem_map.mp hadd
          exact Or.inr ⟨n, a.1, a.2, rfl, (mem_addition.mp ha).1, rfl⟩
      · cases he
  · cases he

/-- Every client service that is added comes from the new configuration. -/
theorem add_of_calculateEvents {old new : Config} {events : List ConfigChange}
    (h : calculateEvents old new = some events) {cfg : ClientServiceConfig}
    (hcfg : ConfigChange.clientChange (.add cfg) ∈ events) :
    ∃ client name, new.client = some client ∧
      client.services.lookup name = some cfg := by
  by_cases honly : old.OnlyServices new
  · have hevents := calculateEvents_of_onlyServices honly
    rw [h, Option.getD_some] at hevents
    rw [hevents] at hcfg
    rcases List.mem_append.mp hcfg with hserver | hclient
    · rcases mem_blockEvents hserver with ⟨name, heq⟩ | ⟨_, _, _, _, _, heq⟩
      · cases heq
      · cases heq
    · rcases mem_blockEvents hclient with
        ⟨name, heq⟩ | ⟨client, name, s, hclient, hs, heq⟩
      · cases heq
      · cases heq
        exact ⟨client, name, hclient, hs⟩
  · rw [calculateEvents_general honly] at h
    cases h
    cases List.mem_singleton.mp hcfg

/-- A reload to a validated configuration never panics on a retry interval. -/
theorem handleHotReload_isSome {parsed : Except String Config}
    {old new : Config} (hnew : Config.fromStr parsed = .ok new)
    {events : List ConfigChange} (h : calculateEvents old new = some events)
    (client : Client) {e : ConfigChange} (he : e ∈ events) :
    (client.handleHotReload e).isSome := by
  unfold Client.handleHotReload
  split
  · rename_i cfg
    obtain ⟨block, name, hblock, hcfg⟩ := add_of_calculateEvents h he
    obtain ⟨interval, hretry⟩ := Option.isSome_iff_exists.mp
      ((Client.startable_of_fromStr hnew hblock).retry name cfg hcfg)
    unfold Client.startService ControlChannelHandle.new
    rw [hretry]
    rfl
  · rfl
  · rfl

/-- **Validation is a stable normalisation.** Each block is accepted exactly
when its services can be given what they need, whatever the order of the maps;
what is left is the block filled in, which is validated to itself; and no
service of a validated configuration lacks its retry interval when it is
started or added. -/
theorem validation_normalises :
    (∀ server : ServerConfig,
      ((∃ server', validateServerConfig server = .ok server') ↔
        server.Acceptable) ∧
      (∀ other, server.Same other →
        (server.Acceptable ↔ other.Acceptable)) ∧
      ∀ server', validateServerConfig server = .ok server' →
        server.Normalised server' ∧
        validateServerConfig server' = .ok server' ∧
        ∀ other, server.Same other →
          ∃ other', validateServerConfig other = .ok other' ∧
            server'.Same other') ∧
    (∀ client : ClientConfig,
      ((∃ client', validateClientConfig client = .ok client') ↔
        client.Acceptable) ∧
      (∀ other, client.Same other →
        (client.Acceptable ↔ other.Acceptable)) ∧
      ∀ client', validateClientConfig client = .ok client' →
        client.Normalised client' ∧
        validateClientConfig client' = .ok client' ∧
        ∀ other, client.Same other →
          ∃ other', validateClientConfig other = .ok other' ∧
            client'.Same other') ∧
    ∀ parsed config, Config.fromStr parsed = .ok config →
      (∀ client, config.client = some client →
        (Client.startServices client).isSome) ∧
      ∀ old events (s : Client), calculateEvents old config = some events →
        ∀ e ∈ events, (s.handleHotReload e).isSome := by
  refine ⟨?_, ?_, ?_⟩
  · intro server
    refine ⟨server_acceptable_iff, fun _ => server_acceptable_congr, ?_⟩
    intro server' h
    exact ⟨server_normalised h, validateServerConfig_stable h,
      fun other hsame => validateServerConfig_same hsame h⟩
  · intro client
    refine ⟨client_acceptable_iff, fun _ => client_acceptable_congr, ?_⟩
    intro client' h
    exact ⟨client_normalised h, validateClientConfig_stable h,
      fun other hsame => validateClientConfig_same hsame h⟩
  · intro parsed config h
    constructor
    · intro client hclient
      obtain ⟨s, hs, -⟩ := Client.startServices_converges
        (Client.startable_of_fromStr h hclient)
      rw [hs]
      rfl
    · exact fun old events s hevents e he =>
        handleHotReload_isSome h hevents s he

end Rathole
