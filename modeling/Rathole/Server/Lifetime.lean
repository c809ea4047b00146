import Rathole.Server.Interleaving

/-!
# Control channels and their services

A handshake looks its service up, waits for the peer and then installs a
handle. A reload changes the services first and removes the handle under the
changed digest later. Between reloads, every handle is for the service as it
is configured, provided that no handshake installs a handle for a service
that was changed behind its back: `InstallsCurrent`. Nothing in the handshake
sees to that.
-/

namespace Rathole.Server

open Runs

/-- The change that is being applied has still to remove the handle under
`d`, in whatever order it will find the services. -/
def State.WillDrop (s : State) (d : Digest) : Prop :=
  match s.main with
  | .addService hash _ => hash = d
  | .addDropChannel hash => hash = d
  | .deleteScan name => ∀ order, order.Perm s.services.entries →
      hashToRemove order name = some d
  | .deleteService hash => hash = d
  | .deleteDropChannel hash => hash = d
  | _ => False

/-- A hot-reload change is being applied. -/
def State.reloading (s : State) : Bool :=
  match s.main with
  | .idle => false
  | .clearChannels => false
  | .stopped => false
  | _ => true

/-- The handle was installed by `do_control_channel_handshake`. -/
def InstalledByControl (s : State) (c : ConnId) : Prop :=
  ∃ d k service, Finished s c (.controlEstablished d k service)

/-- When a handshake installs its handle, the service it has looked up is
still the configured one, or the handle will be removed by the change that is
being applied. -/
def InstallsCurrent (s : State) (a : Action) : Prop :=
  ∀ c conn d k service, a = .conn c .proceed → s.conns.lookup c = some conn →
    conn.pc = .sendAck d k service →
      s.services.lookup d = some service ∨ s.WillDrop d

/-- Every handle of a control channel is for the configured service, or will
be removed. -/
def HandlesCurrent (s : State) : Prop :=
  ∀ d k h, s.controlChannels.Entry d k h → InstalledByControl s h.owner →
    s.services.lookup d = some h.service ∨ s.WillDrop d

section

variable {digest : Bytes → Digest} {s t : State} {a : Action}

theorem InstalledByControl.of_step {c : ConnId} {o : Outcome}
    (ho : Finished s c o) (hstep : step digest s a = some t)
    (hc : InstalledByControl t c) : InstalledByControl s c := by
  obtain ⟨d, k, service, hest⟩ := hc
  cases (ho.step hstep).unique hest
  exact ⟨d, k, service, ho⟩

theorem not_willDrop_of_not_reloading (hs : s.reloading = false) (d : Digest) :
    ¬ s.WillDrop d := by
  unfold State.reloading at hs
  intro hdrop
  unfold State.WillDrop at hdrop
  cases hmain : s.main with
  | idle =>
      rw [hmain] at hdrop
      exact hdrop
  | clearChannels =>
      rw [hmain] at hdrop
      exact hdrop
  | stopped =>
      rw [hmain] at hdrop
      exact hdrop
  | _ =>
      rw [hmain] at hs
      cases hs

/-- What a step does to a service that an entry relies on: nothing, if the
entry outlives the step. -/
theorem current_step (hstep : step digest s a = some t) {d : Digest} {k : Nonce}
    {h : Handle} (he : t.controlChannels.Entry d k h)
    {service : ServerServiceConfig}
    (hs : s.services.lookup d = some service ∨ s.WillDrop d) :
    t.services.lookup d = some service ∨ t.WillDrop d := by
  cases shape_step hstep with
  | accept hmain hnone => exact hs
  | conn hconn hlocal =>
      unfold State.WillDrop State.setConn
      rw [apply_services, apply_main]
      exact hs
  | pool => exact hs
  | reload hmain =>
      have hcur := hs.resolve_right
        (not_willDrop_of_not_reloading (by rw [State.reloading, hmain]) d)
      unfold startReload
      split <;> exact Or.inl hcur
  | shutdown hmain =>
      exact Or.inl (hs.resolve_right
        (not_willDrop_of_not_reloading (by rw [State.reloading, hmain]) d))
  | main hshape =>
      unfold State.WillDrop at hs
      cases hshape with
      | addService hmain =>
          rw [hmain] at hs
          rename_i hash cfg
          by_cases hd : hash = d
          · exact Or.inr hd
          · refine Or.inl ?_
            rw [AList.lookup_insert_ne (Ne.symm hd)]
            exact hs.resolve_right hd
      | dropChannel hmain hlock =>
          -- the entry is none of those that are removed
          have hne := (MultiMap.entry_remove1.mp he).2
          rcases hmain with hmain | hmain
          all_goals
            rw [hmain] at hs
            exact Or.inl (hs.resolve_right (fun heq => hne heq.symm))
      | found hmain horder hhash =>
          rw [hmain] at hs
          refine hs.imp id (fun hall => ?_)
          exact Option.some.inj (hhash.symm.trans (hall _ horder))
      | notFound hmain horder hhash =>
          rw [hmain] at hs
          refine Or.inl (hs.resolve_right (fun hall => ?_))
          have hsome := hall _ horder
          rw [hhash] at hsome
          cases hsome
      | deleteService hmain =>
          rw [hmain] at hs
          rename_i hash
          by_cases hd : hash = d
          · exact Or.inr hd
          · refine Or.inl ?_
            rw [AList.lookup_erase_ne (Ne.symm hd)]
            exact hs.resolve_right hd
      | clear hmain hlock => exact absurd he MultiMap.not_entry_clear

/-- The invariant of conditioned runs. -/
theorem HandlesCurrent.step (hs : HandlesCurrent s)
    (hest : EntriesEstablished digest s) (hcond : InstallsCurrent s a)
    (hstep : Server.step digest s a = some t) : HandlesCurrent t := by
  intro d k h he hctl
  rcases entry_of_step hstep he with hold | hi
  · obtain ⟨o, ho, -⟩ := hest d k h hold
    have hbefore := InstalledByControl.of_step ho hstep hctl
    exact current_step hstep he (hs d k h hold hbefore)
  · cases hi with
    | control ha hconn hpc hfin =>
        exact current_step hstep he (hcond _ _ _ _ _ ha hconn hpc)
    | visitor ha hlock hconn hpc hfin hx =>
        obtain ⟨d', k', service, hctl⟩ := hctl
        cases hfin.unique hctl

/-- **Control channels and services agree between reloads**, in every run
whose handshakes install handles only for services that are current. -/
theorem control_channels_current (digest : Bytes → Digest)
    (config : ServerConfig) (actions : List Action) (s : State)
    (hrun : Run (step digest) (init digest config) actions s)
    (hcond : Meets (step digest) InstallsCurrent (init digest config) actions)
    (hidle : s.reloading = false) :
    ∀ d k h, s.controlChannels.Entry d k h → InstalledByControl s h.owner →
      s.services.lookup d = some h.service := by
  have hinv : EntriesEstablished digest s ∧ HandlesCurrent s := by
    refine run_preserves_of_meets (I := fun s =>
      EntriesEstablished digest s ∧ HandlesCurrent s) ?_ ?_ hcond hrun
    · rintro s a t ⟨hest, hs⟩ ha hstep
      exact ⟨hest.step hstep, hs.step hest ha hstep⟩
    · exact ⟨entriesEstablished_init config,
        fun d k h he => absurd he MultiMap.not_entry_new⟩
  intro d k h he hctl
  exact (hinv.2 d k h he hctl).resolve_right
    (not_willDrop_of_not_reloading hidle d)

/-! ## A change takes effect as if nothing else ran

The accepting task is the only one that writes the services, so what a change
does to them does not depend on the steps taken in between. -/

/-- `services` with the change applied, in some order of the scan. -/
def Applied (digest : Bytes → Digest) (services : Services)
    (change : ConfigChange) (result : Services) : Prop :=
  ∃ order, order.Perm services.entries ∧
    result = handleHotReload digest order services change

/-- The change is on its way: what is left to do to the services, by the await
point of the accepting task. -/
def Applying (digest : Bytes → Digest) (services : Services)
    (change : ConfigChange) (t : State) : Prop :=
  match t.main with
  | .addService hash cfg =>
      Applied digest services change (AList.insert hash cfg t.services)
  | .deleteScan name => t.services = services ∧
      change = .serverChange (.delete name)
  | .deleteService hash =>
      Applied digest services change (AList.erase hash t.services)
  | .addDropChannel _ => Applied digest services change t.services
  | .deleteDropChannel _ => Applied digest services change t.services
  | .idle => Applied digest services change t.services
  | .clearChannels => False
  | .stopped => False

theorem applying_startReload {change : ConfigChange} (hmain : s.main = .idle) :
    Applying digest s.services change (startReload digest s change) := by
  have hignored : ∀ change, handleHotReload digest s.services.entries s.services
      change = s.services → Applying digest s.services change s := by
    intro change heq
    unfold Applying
    rw [hmain]
    exact ⟨s.services.entries, List.Perm.refl _, heq.symm⟩
  cases change with
  | general config => exact hignored _ rfl
  | clientChange change => exact hignored _ rfl
  | serverChange change =>
      cases change with
      | add cfg => exact ⟨s.services.entries, List.Perm.refl _, rfl⟩
      | delete name => exact ⟨rfl, rfl⟩

/-- The accepting task does not turn to another event of its loop. -/
def Undisturbed (_ : State) : Action → Prop
  | .reload _ => False
  | .shutdown => False
  | _ => True

theorem Applying.step {services : Services} {change : ConfigChange}
    (hs : Applying digest services change s) (ha : Undisturbed s a)
    (hstep : Server.step digest s a = some t) :
    Applying digest services change t := by
  unfold Applying at hs ⊢
  cases shape_step hstep with
  | accept hmain hnone => exact hs
  | conn hconn hlocal =>
      unfold State.setConn
      rw [apply_services, apply_main]
      exact hs
  | pool => exact hs
  | reload hmain => exact ha.elim
  | shutdown hmain => exact ha.elim
  | main hshape =>
      cases hshape with
      | addService hmain =>
          rw [hmain] at hs
          exact hs
      | dropChannel hmain hlock =>
          rcases hmain with hmain | hmain
          all_goals
            rw [hmain] at hs
            exact hs
      | found hmain horder hhash =>
          rw [hmain] at hs
          obtain ⟨hservices, rfl⟩ := hs
          refine ⟨_, hservices ▸ horder, ?_⟩
          simp [handleHotReload, hhash, hservices]
      | notFound hmain horder hhash =>
          rw [hmain] at hs
          obtain ⟨hservices, rfl⟩ := hs
          refine ⟨_, hservices ▸ horder, ?_⟩
          simp [handleHotReload, hhash, hservices]
      | deleteService hmain =>
          rw [hmain] at hs
          exact hs
      | clear hmain hlock =>
          rw [hmain] at hs
          exact hs.elim

/-- When the accepting task is idle again, the services are those that
`handleHotReload` gives, whatever the connections did meanwhile. -/
theorem services_after_reload {change : ConfigChange} {actions : List Action}
    (hmain : s.main = .idle)
    (hrun : Run (step digest) (startReload digest s change) actions t)
    (hquiet : Meets (step digest) Undisturbed (startReload digest s change)
      actions) (hidle : t.main = .idle) :
    Applied digest s.services change t.services := by
  have hend : Applying digest s.services change t :=
    run_preserves_of_meets (fun s a t hs ha hstep => hs.step ha hstep)
      (applying_startReload hmain) hquiet hrun
  unfold Applying at hend
  rw [hidle] at hend
  exact hend

end

/-- The check of `InstallsCurrent` that no change is being applied for. -/
def installsConfigured (s : State) : Action → Bool
  | .conn c .proceed =>
      match s.conns.lookup c with
      | some ⟨.sendAck d _ service, _, _⟩ =>
          decide (s.services.lookup d = some service)
      | _ => true
  | _ => true

theorem installsCurrent_of_configured {s : State} {a : Action}
    (h : installsConfigured s a = true) : InstallsCurrent s a := by
  rintro c ⟨pc, trace, session⟩ d k service rfl hconn rfl
  simp only [installsConfigured, hconn, decide_eq_true_eq] at h
  exact Or.inl h

/-- The sample service at another address. -/
def movedService : ServerServiceConfig :=
  { sampleService with bindAddr := "127.0.0.1:2334" }

/-- A reload that changes the service, and then a handshake. -/
def moveWeb : List Action :=
  [.reload (.serverChange (.add movedService)), .main [], .main []] ++
    askForWeb ++ registerWeb

theorem control_channels_current_web : ∃ s,
    Run (step sampleDigest) (init sampleDigest sampleConfig) moveWeb s ∧
    s.controlChannels.Entry webDigest webKey ⟨0, movedService, 30⟩ ∧
    s.services.lookup webDigest = some movedService := by
  have hmeets : Meets (step sampleDigest) InstallsCurrent
      (init sampleDigest sampleConfig) moveWeb :=
    Meets.mono (fun s a h => installsCurrent_of_configured h)
      (show Meets (step sampleDigest) (fun s a => installsConfigured s a = true)
        (init sampleDigest sampleConfig) moveWeb by decide)
  obtain ⟨s, hrun, hidle, hentry, hctl⟩ : ∃ s,
      Run (step sampleDigest) (init sampleDigest sampleConfig) moveWeb s ∧
      s.reloading = false ∧
      s.controlChannels.Entry webDigest webKey ⟨0, movedService, 30⟩ ∧
      InstalledByControl s 0 :=
    ⟨_, rfl, rfl, ⟨0, rfl⟩, webDigest, webKey, movedService, _, rfl, rfl⟩
  exact ⟨s, hrun, hentry, control_channels_current sampleDigest sampleConfig _ s
    hrun hmeets hidle webDigest webKey ⟨0, movedService, 30⟩ hentry hctl⟩

/-- The service is deleted while the server waits for the peer's `Auth`: the
peer is then registered for a service that is gone. -/
theorem deleted_service_registered : ∃ s,
    Run (step sampleDigest) (init sampleDigest sampleConfig)
      (askForWeb ++
        [.reload (.serverChange (.delete "web")),
          .main (generateServiceHashmap sampleDigest sampleConfig).entries,
          .main [], .main []] ++ registerWeb) s ∧
    s.main = .idle ∧
    s.controlChannels.Entry webDigest webKey ⟨0, sampleService, 30⟩ ∧
    InstalledByControl s 0 ∧ s.services.lookup webDigest = none :=
  ⟨_, rfl, rfl, ⟨0, rfl⟩, ⟨webDigest, webKey, sampleService, _, rfl, rfl⟩, rfl⟩

end Rathole.Server
