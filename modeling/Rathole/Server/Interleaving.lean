import Rathole.Lib.Runs
import Rathole.Server.Handshake

/-!
# Interleavings of the server's tasks

What a step of the system does to the entries of the control channels, to the
record of dropped handles and to the sessions that are established. Every
invariant of the server is proved from these lemmas.
-/

namespace Rathole.Server

open Runs

section

variable {s : State} {d d' : Digest} {k k' : Nonce} {h h' : Handle}

/-! ## Locks -/

theorem someConn_eq_false {p : Pc → Bool} :
    s.someConn p = false ↔
      ∀ c conn, s.conns.lookup c = some conn → p conn.pc = false := by
  unfold State.someConn
  rw [List.any_eq_false]
  constructor
  · intro hall c conn hc
    exact Bool.eq_false_iff.mpr (hall ⟨c, conn⟩ (HashMap.mem_entries_iff.mpr hc))
  · intro hall e he
    exact Bool.eq_false_iff.mp
      (hall e.1 e.2 (HashMap.mem_entries_iff.mp he))

theorem channelsReadable_iff : s.channelsReadable = true ↔
    ∀ c conn, s.conns.lookup c = some conn → conn.pc.writesChannels = false := by
  unfold State.channelsReadable
  rw [Bool.not_eq_true', someConn_eq_false]

theorem channelsReadable_of_writable (hw : s.channelsWritable = true) :
    s.channelsReadable = true := by
  unfold State.channelsWritable at hw
  exact (Bool.and_eq_true _ _ ▸ hw).1

/-! ## Dropping and installing -/

theorem mem_dropped_drop {cause : Cause} {x : ConnId × Cause} :
    x ∈ (s.drop d cause).dropped ↔ x ∈ s.dropped ∨
      ∃ k h, s.controlChannels.Entry d k h ∧ x = (h.owner, cause) := by
  show x ∈ s.dropped ++ (s.controlChannels.remove1 d).1.toList.map _ ↔ _
  rw [List.mem_append, List.mem_map]
  refine or_congr_right ?_
  constructor
  · rintro ⟨h, hh, rfl⟩
    obtain ⟨k, hentry⟩ :=
      MultiMap.remove1_fst_eq_some.mp (Option.mem_toList.mp hh)
    exact ⟨k, h, hentry, rfl⟩
  · rintro ⟨k, h, hentry, rfl⟩
    exact ⟨h, Option.mem_toList.mpr
      (MultiMap.remove1_fst_eq_some.mpr ⟨k, hentry⟩), rfl⟩

theorem entry_install (hd : ∀ k' h', ¬ s.controlChannels.Entry d k' h')
    (hk : ∀ d' h', ¬ s.controlChannels.Entry d' k h') :
    (s.install d k h).controlChannels.Entry d' k' h' ↔
      s.controlChannels.Entry d' k' h' ∨ (d' = d ∧ k' = k ∧ h' = h) := by
  obtain ⟨m, hm⟩ := MultiMap.insert_eq_ok (v := h) hd hk
  unfold State.install
  rw [hm]
  exact MultiMap.entry_insert hm

theorem entry_of_install
    (he : (s.install d k h).controlChannels.Entry d' k' h') :
    s.controlChannels.Entry d' k' h' ∨ (d' = d ∧ k' = k ∧ h' = h) := by
  unfold State.install at he
  split at he
  · rename_i hm
    exact (MultiMap.entry_insert hm).mp he
  · exact Or.inl he

theorem entry_install_of_entry (he : s.controlChannels.Entry d' k' h') :
    (s.install d k h).controlChannels.Entry d' k' h' := by
  unfold State.install
  split
  · rename_i hm
    exact (MultiMap.entry_insert hm).mpr (Or.inl he)
  · exact he

@[simp] theorem install_config : (s.install d k h).config = s.config := by
  unfold State.install
  split <;> rfl

@[simp] theorem install_services : (s.install d k h).services = s.services := by
  unfold State.install
  split <;> rfl

@[simp] theorem install_conns : (s.install d k h).conns = s.conns := by
  unfold State.install
  split <;> rfl

@[simp] theorem install_main : (s.install d k h).main = s.main := by
  unfold State.install
  split <;> rfl

@[simp] theorem install_dataChannels :
    (s.install d k h).dataChannels = s.dataChannels := by
  unfold State.install
  split <;> rfl

@[simp] theorem install_dropped : (s.install d k h).dropped = s.dropped := by
  unfold State.install
  split <;> rfl

variable {c : ConnId} {e : Effect}

@[simp] theorem apply_config : (s.apply c e).config = s.config := by
  cases e <;> simp [State.apply, State.drop, State.setDataChannel]

@[simp] theorem apply_services : (s.apply c e).services = s.services := by
  cases e <;> simp [State.apply, State.drop, State.setDataChannel]

@[simp] theorem apply_conns : (s.apply c e).conns = s.conns := by
  cases e <;> simp [State.apply, State.drop, State.setDataChannel]

@[simp] theorem apply_main : (s.apply c e).main = s.main := by
  cases e <;> simp [State.apply, State.drop, State.setDataChannel]

theorem lookup_setConn {c' : ConnId} {conn : Conn} :
    (s.setConn c conn).conns.lookup c' =
      if c' = c then some conn else s.conns.lookup c' := by
  show AList.lookup c' (AList.insert c conn s.conns) = _
  split
  · rename_i heq
    rw [heq, AList.lookup_insert]
  · rename_i hne
    exact AList.lookup_insert_ne hne

theorem lookup_setConn_self {conn : Conn} :
    (s.setConn c conn).conns.lookup c = some conn :=
  AList.lookup_insert _

theorem dataChannel_setDataChannel {owner owner' : ConnId} {ch : DataChannel} :
    (s.setDataChannel owner ch).dataChannel owner' =
      if owner' = owner then ch else s.dataChannel owner' := by
  show (AList.lookup owner' (AList.insert owner ch s.dataChannels)).getD _ = _
  split
  · rename_i heq
    rw [heq, AList.lookup_insert]
    rfl
  · rename_i hne
    rw [AList.lookup_insert_ne hne]
    rfl

/-! ## Steps -/

variable {digest : Bytes → Digest} {t : State} {l : Local}

/-- The steps of the accepting task between two events of its loop. -/
inductive MainShape (s : State) : State → Prop where
  | addService {hash : Digest} {cfg : ServerServiceConfig}
      (hmain : s.main = .addService hash cfg) :
      MainShape s { s with services := AList.insert hash cfg s.services
                           main := .addDropChannel hash }
  | dropChannel {hash : Digest} (hmain : s.main = .addDropChannel hash ∨
        s.main = .deleteDropChannel hash) (hlock : s.channelsWritable = true) :
      MainShape s { s.drop hash .reload with main := .idle }
  | found {name : String} {order : List ((_ : Digest) × ServerServiceConfig)}
      {hash : Digest} (hmain : s.main = .deleteScan name)
      (horder : order.Perm s.services.entries)
      (hhash : hashToRemove order name = some hash) :
      MainShape s { s with main := .deleteService hash }
  | notFound {name : String} {order : List ((_ : Digest) × ServerServiceConfig)}
      (hmain : s.main = .deleteScan name)
      (horder : order.Perm s.services.entries)
      (hhash : hashToRemove order name = none) :
      MainShape s { s with main := .idle }
  | deleteService {hash : Digest} (hmain : s.main = .deleteService hash) :
      MainShape s { s with services := AList.erase hash s.services
                           main := .deleteDropChannel hash }
  | clear (hmain : s.main = .clearChannels) (hlock : s.channelsWritable = true) :
      MainShape s { s with
        controlChannels := s.controlChannels.clear
        main := .stopped
        dropped := s.dropped ++ s.controlChannels.store.entries.map
          (fun e => (e.2.2.2.owner, .clear)) }

theorem shape_mainStep {order : List ((_ : Digest) × ServerServiceConfig)}
    (hstep : mainStep s order = some t) : MainShape s t := by
  unfold mainStep at hstep
  split at hstep <;> rename_i hmain
  · split at hstep
    · cases hstep
      exact .addService hmain
    · cases hstep
  · split at hstep
    · rename_i hlock
      cases hstep
      exact .dropChannel (.inl hmain) hlock
    · cases hstep
  · split at hstep
    · rename_i hscan
      split at hstep
      · rename_i hhash
        cases hstep
        exact .found hmain hscan.2 hhash
      · rename_i hhash
        cases hstep
        exact .notFound hmain hscan.2 hhash
    · cases hstep
  · split at hstep
    · cases hstep
      exact .deleteService hmain
    · cases hstep
  · split at hstep
    · rename_i hlock
      cases hstep
      exact .dropChannel (.inr hmain) hlock
    · cases hstep
  · split at hstep
    · rename_i hlock
      cases hstep
      exact .clear hmain hlock
    · cases hstep
  · cases hstep
  · cases hstep

/-- The steps of the system. -/
inductive StepShape (digest : Bytes → Digest) (s : State) :
    Action → State → Prop where
  | accept {c : ConnId} (hmain : s.main = .idle)
      (hconn : s.conns.lookup c = none) :
      StepShape digest s (.accept c) (s.setConn c ⟨.readHello, [], none⟩)
  | conn {c : ConnId} {l : Local} {conn conn' : Conn} {e : Effect}
      (hconn : s.conns.lookup c = some conn)
      (hlocal : localStep digest s c conn l = some (conn', e)) :
      StepShape digest s (.conn c l) ((s.apply c e).setConn c conn')
  | pool {a : Action} {owner : ConnId} {ch : DataChannel}
      (ha : a = .take owner ∨ a = .close owner)
      (hsent : ch.sent = (s.dataChannel owner).sent) :
      StepShape digest s a (s.setDataChannel owner ch)
  | reload {change : ConfigChange} (hmain : s.main = .idle) :
      StepShape digest s (.reload change) (startReload digest s change)
  | main {order : List ((_ : Digest) × ServerServiceConfig)} {t : State}
      (hshape : MainShape s t) : StepShape digest s (.main order) t
  | shutdown (hmain : s.main = .idle) :
      StepShape digest s .shutdown { s with main := .clearChannels }

theorem shape_step {a : Action} (hstep : step digest s a = some t) :
    StepShape digest s a t := by
  cases a with
  | accept c =>
      simp only [step] at hstep
      split at hstep
      · rename_i hacc
        cases hstep
        exact .accept hacc.1 hacc.2
      · cases hstep
  | conn c l =>
      simp only [step] at hstep
      split at hstep
      · cases hstep
      · rename_i conn hconn
        obtain ⟨⟨conn', e⟩, hlocal, rfl⟩ := Option.map_eq_some_iff.mp hstep
        exact .conn hconn hlocal
  | take owner =>
      simp only [step] at hstep
      split at hstep
      · cases hstep
        exact .pool (.inl rfl) rfl
      · cases hstep
  | close owner =>
      cases hstep
      exact .pool (.inr rfl) rfl
  | reload change =>
      simp only [step] at hstep
      split at hstep
      · rename_i hmain
        cases hstep
        exact .reload hmain
      · cases hstep
  | main order => exact .main (shape_mainStep hstep)
  | shutdown =>
      simp only [step] at hstep
      split at hstep
      · rename_i hmain
        cases hstep
        exact .shutdown hmain
      · cases hstep

theorem step_conn {c : ConnId} {l : Local}
    (hstep : step digest s (.conn c l) = some t) :
    ∃ conn conn' e, s.conns.lookup c = some conn ∧
      localStep digest s c conn l = some (conn', e) ∧
      t = (s.apply c e).setConn c conn' := by
  simp only [step] at hstep
  split at hstep
  · cases hstep
  · rename_i conn hconn
    obtain ⟨⟨conn', e⟩, hlocal, rfl⟩ := Option.map_eq_some_iff.mp hstep
    exact ⟨conn, conn', e, hconn, hlocal, rfl⟩

/-- Beside its own step, a connection only comes into being. -/
theorem lookup_of_step {a : Action} (hstep : step digest s a = some t)
    {c : ConnId} {conn : Conn} (hconn : t.conns.lookup c = some conn) :
    s.conns.lookup c = some conn ∨
    (a = .accept c ∧ s.conns.lookup c = none ∧ conn = ⟨.readHello, [], none⟩) ∨
    ∃ l conn₀ e, a = .conn c l ∧ s.conns.lookup c = some conn₀ ∧
      localStep digest s c conn₀ l = some (conn, e) ∧
      t = (s.apply c e).setConn c conn := by
  cases shape_step hstep with
  | accept hmain hnone =>
      rw [lookup_setConn] at hconn
      split at hconn
      · rename_i heq
        subst heq
        cases hconn
        exact Or.inr (Or.inl ⟨rfl, hnone, rfl⟩)
      · exact Or.inl hconn
  | conn hconn₀ hlocal =>
      rw [lookup_setConn, apply_conns] at hconn
      split at hconn
      · rename_i heq
        subst heq
        cases hconn
        exact Or.inr (Or.inr ⟨_, _, _, rfl, hconn₀, hlocal, rfl⟩)
      · exact Or.inl hconn
  | pool => exact Or.inl hconn
  | reload hmain =>
      unfold startReload at hconn
      split at hconn <;> exact Or.inl hconn
  | main hshape => cases hshape <;> exact Or.inl hconn
  | shutdown hmain => exact Or.inl hconn

/-- No connection disappears. -/
theorem lookup_step {a : Action} (hstep : step digest s a = some t)
    {c : ConnId} {conn : Conn} (hconn : s.conns.lookup c = some conn) :
    t.conns.lookup c = some conn ∨
    ∃ l conn' e, a = .conn c l ∧ t.conns.lookup c = some conn' ∧
      localStep digest s c conn l = some (conn', e) := by
  cases shape_step hstep with
  | accept hmain hnone =>
      left
      rw [lookup_setConn, if_neg]
      · exact hconn
      · rintro rfl
        rw [hconn] at hnone
        cases hnone
  | conn hconn₀ hlocal =>
      rw [lookup_setConn, apply_conns]
      split
      · rename_i heq
        subst heq
        cases hconn.symm.trans hconn₀
        exact Or.inr ⟨_, _, _, rfl, rfl, hlocal⟩
      · exact Or.inl hconn
  | pool => exact Or.inl hconn
  | reload hmain =>
      unfold startReload
      split <;> exact Or.inl hconn
  | main hshape => cases hshape <;> exact Or.inl hconn
  | shutdown hmain => exact Or.inl hconn

theorem config_step {a : Action} (hstep : step digest s a = some t) :
    t.config = s.config := by
  cases shape_step hstep with
  | conn hconn hlocal => exact apply_config
  | reload hmain =>
      unfold startReload
      split <;> rfl
  | main hshape => cases hshape <;> rfl
  | _ => rfl

/-! ## Sessions that are established -/

/-- The handshake of `c` has ended so. -/
def Finished (s : State) (c : ConnId) (o : Outcome) : Prop :=
  ∃ conn, s.conns.lookup c = some conn ∧ conn.pc = .finished o

/-- The handshake of `c` has ended with a session: its digest, its key and
its service. -/
def Established (digest : Bytes → Digest) (s : State) (c : ConnId)
    (x : Digest × Nonce × ServerServiceConfig) : Prop :=
  ∃ o, Finished s c o ∧ (Pc.finished o).established digest = some x

theorem Finished.unique {o o' : Outcome} (ho : Finished s c o)
    (ho' : Finished s c o') : o = o' := by
  obtain ⟨conn, hconn, hpc⟩ := ho
  obtain ⟨conn', hconn', hpc'⟩ := ho'
  cases hconn.symm.trans hconn'
  rw [hpc] at hpc'
  cases hpc'
  rfl

theorem Established.unique {x x' : Digest × Nonce × ServerServiceConfig}
    (hx : Established digest s c x) (hx' : Established digest s c x') :
    x = x' := by
  obtain ⟨o, ho, hx⟩ := hx
  obtain ⟨o', ho', hx'⟩ := hx'
  cases ho.unique ho'
  exact Option.some.inj (hx.symm.trans hx')

/-- A handshake that has ended stays as it is. -/
theorem Shape.finished {conn conn' : Conn}
    (hshape : Shape digest s c conn l conn' e) {o : Outcome}
    (ho : conn.pc = .finished o) : conn'.pc = .finished o := by
  cases hshape with
  | quiet hquiet => rw [hquiet.finished o ho, ho]
  | drop hlock hpc =>
      rw [hpc] at ho
      cases ho
  | install hpc hpc' hkey =>
      rw [hpc] at ho
      cases ho
  | replace hlock hpc hpc' hkey =>
      rw [hpc] at ho
      cases ho
  | hand hpc hpc' hkey =>
      rw [hpc] at ho
      cases ho

theorem Finished.step {a : Action} {o : Outcome} (ho : Finished s c o)
    (hstep : Server.step digest s a = some t) : Finished t c o := by
  obtain ⟨conn, hconn, hpc⟩ := ho
  rcases lookup_step hstep hconn with hsame | ⟨l, conn', e, -, hconn', hlocal⟩
  · exact ⟨conn, hsame, hpc⟩
  · exact ⟨conn', hconn', (shape_localStep hlocal).finished hpc⟩

theorem Established.step {a : Action}
    {x : Digest × Nonce × ServerServiceConfig} (hest : Established digest s c x)
    (hstep : Server.step digest s a = some t) : Established digest t c x := by
  obtain ⟨o, ho, hx⟩ := hest
  exact ⟨o, ho.step hstep, hx⟩

/-- The step by which the owner of `h` puts it under `d` and `k`. -/
inductive Installs (digest : Bytes → Digest) (s : State) (a : Action) (t : State)
    (d : Digest) (k : Nonce) (h : Handle) : Prop where
  | control {conn : Conn} (ha : a = .conn h.owner .proceed)
      (hconn : s.conns.lookup h.owner = some conn)
      (hpc : conn.pc = .sendAck d k h.service)
      (hfin : Finished t h.owner (.controlEstablished d k h.service))
  | visitor {conn : Conn} {v : Visitor} (ha : a = .conn h.owner .proceed)
      (hlock : s.channelsWritable = true)
      (hconn : s.conns.lookup h.owner = some conn)
      (hpc : conn.pc = .lockVisitor v)
      (hfin : Finished t h.owner (.visitorEstablished v))
      (hx : (d, k, h.service) =
        (visitorDigest digest v, v.sessionNonce, visitorService v))

theorem Installs.established {a : Action} (hi : Installs digest s a t d k h) :
    Established digest t h.owner (d, k, h.service) := by
  cases hi with
  | control ha hconn hpc hfin => exact ⟨_, hfin, rfl⟩
  | visitor ha hlock hconn hpc hfin hx => exact ⟨_, hfin, by rw [hx]; rfl⟩

/-- An entry is an old one, or is installed by this step. -/
theorem entry_of_step {a : Action} (hstep : Server.step digest s a = some t)
    (he : t.controlChannels.Entry d k h) :
    s.controlChannels.Entry d k h ∨ Installs digest s a t d k h := by
  cases shape_step hstep with
  | conn hconn hlocal =>
      cases shape_localStep hlocal with
      | quiet hquiet => exact Or.inl he
      | drop hlock hpc => exact Or.inl (MultiMap.entry_remove1.mp he).1
      | install hpc hpc' hkey =>
          rcases entry_of_install he with he | ⟨rfl, rfl, rfl⟩
          · exact Or.inl he
          · exact Or.inr (.control rfl hconn hpc
              ⟨_, lookup_setConn_self, hpc'⟩)
      | replace hlock hpc hpc' hkey =>
          rcases entry_of_install he with he | ⟨rfl, rfl, rfl⟩
          · exact Or.inl (MultiMap.entry_remove1.mp he).1
          · exact Or.inr (.visitor rfl hlock hconn hpc
              ⟨_, lookup_setConn_self, hpc'⟩ rfl)
      | hand hpc hpc' hkey => exact Or.inl he
  | reload hmain =>
      unfold startReload at he
      split at he <;> exact Or.inl he
  | main hshape =>
      cases hshape with
      | dropChannel hmain hlock => exact Or.inl (MultiMap.entry_remove1.mp he).1
      | clear hmain hlock => exact absurd he MultiMap.not_entry_clear
      | _ => exact Or.inl he
  | _ => exact Or.inl he

/-- Whoever has an entry has established the session it stands for. -/
def EntriesEstablished (digest : Bytes → Digest) (s : State) : Prop :=
  ∀ d k h, s.controlChannels.Entry d k h →
    Established digest s h.owner (d, k, h.service)

theorem EntriesEstablished.step {a : Action} (hs : EntriesEstablished digest s)
    (hstep : Server.step digest s a = some t) : EntriesEstablished digest t := by
  intro d k h he
  rcases entry_of_step hstep he with he | hi
  · exact (hs d k h he).step hstep
  · exact hi.established

theorem entriesEstablished_init (config : ServerConfig) :
    EntriesEstablished digest (init digest config) :=
  fun _ _ _ he => absurd he MultiMap.not_entry_new

theorem Installs.not_finished {a : Action} (hi : Installs digest s a t d k h)
    {o : Outcome} : ¬ Finished s h.owner o := by
  rintro ⟨conn', hconn', hfin⟩
  cases hi with
  | control ha hconn hpc hfin' =>
      cases hconn.symm.trans hconn'
      rw [hpc] at hfin
      cases hfin
  | visitor ha hlock hconn hpc hfin' hx =>
      cases hconn.symm.trans hconn'
      rw [hpc] at hfin
      cases hfin

/-! ## Dropped handles -/

/-- The record of dropped handles only grows. -/
theorem dropped_step {a : Action} (hstep : Server.step digest s a = some t)
    {x : ConnId × Cause} (hx : x ∈ s.dropped) : x ∈ t.dropped := by
  cases shape_step hstep with
  | conn hconn hlocal =>
      cases shape_localStep hlocal with
      | drop hlock hpc => exact mem_dropped_drop.mpr (Or.inl hx)
      | install hpc hpc' hkey =>
          show x ∈ (s.install _ _ _).dropped
          rw [install_dropped]
          exact hx
      | replace hlock hpc hpc' hkey =>
          show x ∈ ((s.drop _ _).install _ _ _).dropped
          rw [install_dropped]
          exact mem_dropped_drop.mpr (Or.inl hx)
      | _ => exact hx
  | reload hmain =>
      unfold startReload
      split <;> exact hx
  | main hshape =>
      cases hshape with
      | dropChannel hmain hlock => exact mem_dropped_drop.mpr (Or.inl hx)
      | clear hmain hlock => exact List.mem_append_left _ hx
      | _ => exact hx
  | _ => exact hx

/-- What is recorded by a step is the owner of an entry; what stands under
the entry's digest afterwards is new. -/
theorem dropped_of_step {a : Action} (hstep : Server.step digest s a = some t)
    {x : ConnId × Cause} (hx : x ∈ t.dropped) :
    x ∈ s.dropped ∨ ∃ d k h, s.controlChannels.Entry d k h ∧ x.1 = h.owner ∧
      ∀ k' h', t.controlChannels.Entry d k' h' →
        Installs digest s a t d k' h' := by
  -- under a digest that is vacated, an entry cannot be an old one
  have hvacated : ∀ d k h, s.controlChannels.Entry d k h → x.1 = h.owner →
      (∀ k' h', t.controlChannels.Entry d k' h' →
        s.controlChannels.Entry d k' h' → Installs digest s a t d k' h') →
      ∃ d k h, s.controlChannels.Entry d k h ∧ x.1 = h.owner ∧
        ∀ k' h', t.controlChannels.Entry d k' h' →
          Installs digest s a t d k' h' := by
    intro d k h hentry howner hnew
    refine ⟨d, k, h, hentry, howner, ?_⟩
    intro k' h' he
    rcases entry_of_step hstep he with hold | hi
    · exact hnew k' h' he hold
    · exact hi
  cases shape_step hstep with
  | conn hconn hlocal =>
      cases shape_localStep hlocal with
      | quiet hquiet => exact Or.inl hx
      | drop hlock hpc =>
          refine (mem_dropped_drop.mp hx).imp id ?_
          rintro ⟨k, h, hentry, rfl⟩
          exact hvacated _ k h hentry rfl (fun k' h' he _ =>
            absurd rfl (MultiMap.entry_remove1.mp he).2)
      | install hpc hpc' hkey =>
          have hx' : x ∈ (s.install _ _ _).dropped := hx
          rw [install_dropped] at hx'
          exact Or.inl hx'
      | replace hlock hpc hpc' hkey =>
          have hx' : x ∈ ((s.drop _ _).install _ _ _).dropped := hx
          rw [install_dropped] at hx'
          refine (mem_dropped_drop.mp hx').imp id ?_
          rintro ⟨k, h, hentry, rfl⟩
          refine hvacated _ k h hentry rfl (fun k' h' he _ => ?_)
          rcases entry_of_install he with he | ⟨-, rfl, rfl⟩
          · exact absurd rfl (MultiMap.entry_remove1.mp he).2
          · exact .visitor rfl hlock hconn hpc
              ⟨_, lookup_setConn_self, hpc'⟩ rfl
      | hand hpc hpc' hkey => exact Or.inl hx
  | reload hmain =>
      unfold startReload at hx
      split at hx <;> exact Or.inl hx
  | main hshape =>
      cases hshape with
      | dropChannel hmain hlock =>
          refine (mem_dropped_drop.mp hx).imp id ?_
          rintro ⟨k, h, hentry, rfl⟩
          exact hvacated _ k h hentry rfl (fun k' h' he _ =>
            absurd rfl (MultiMap.entry_remove1.mp he).2)
      | clear hmain hlock =>
          refine (List.mem_append.mp hx).imp id ?_
          intro hx
          obtain ⟨⟨addr, d, k, h⟩, he, rfl⟩ := List.mem_map.mp hx
          have hentry : s.controlChannels.Entry d k h :=
            ⟨addr, HashMap.mem_entries_iff.mp he⟩
          exact hvacated d k h hentry rfl
            (fun k' h' he _ => absurd he MultiMap.not_entry_clear)
      | _ => exact Or.inl hx
  | _ => exact Or.inl hx

/-- An entry stays, or its owner is recorded. -/
theorem entry_step {a : Action} (hstep : Server.step digest s a = some t)
    (he : s.controlChannels.Entry d k h) :
    t.controlChannels.Entry d k h ∨ ∃ cause, (h.owner, cause) ∈ t.dropped := by
  have hdrop : ∀ hash cause, (s.drop hash cause).controlChannels.Entry d k h ∨
      ∃ cause', (h.owner, cause') ∈ (s.drop hash cause).dropped := by
    intro hash cause
    by_cases hd : d = hash
    · subst hd
      exact Or.inr ⟨cause, mem_dropped_drop.mpr (Or.inr ⟨k, h, he, rfl⟩)⟩
    · exact Or.inl (MultiMap.entry_remove1.mpr ⟨he, hd⟩)
  cases shape_step hstep with
  | conn hconn hlocal =>
      cases shape_localStep hlocal with
      | quiet hquiet => exact Or.inl he
      | drop hlock hpc => exact hdrop _ _
      | install hpc hpc' hkey => exact Or.inl (entry_install_of_entry he)
      | replace hlock hpc hpc' hkey =>
          refine (hdrop _ _).imp entry_install_of_entry ?_
          rintro ⟨cause, hx⟩
          refine ⟨cause, ?_⟩
          show _ ∈ ((s.drop _ _).install _ _ _).dropped
          rw [install_dropped]
          exact hx
      | hand hpc hpc' hkey => exact Or.inl he
  | reload hmain =>
      unfold startReload
      split <;> exact Or.inl he
  | main hshape =>
      cases hshape with
      | dropChannel hmain hlock => exact hdrop _ _
      | clear hmain hlock =>
          obtain ⟨addr, haddr⟩ := he
          refine Or.inr ⟨.clear, List.mem_append_right _ ?_⟩
          exact List.mem_map.mpr ⟨⟨addr, d, k, h⟩,
            HashMap.mem_entries_iff.mpr haddr, rfl⟩
      | _ => exact Or.inl he
  | _ => exact Or.inl he

end

/-! ## A server with one service -/

/-- SHA-256 on what the examples hash: the identity of the service, the
service's token with a nonce of zeros, the user's token with a nonce of ones,
and the identity of a visitor. -/
def sampleDigest (data : Bytes) : Digest :=
  if data = utf8 "alice:web" then aliceWebDigest
  else if data = utf8 "alice-token" ++ List.replicate 32 0 then
    #v[7, 85, 29, 196, 54, 55, 128, 65, 105, 133, 68, 68, 234, 102, 17, 128,
      248, 19, 202, 61, 164, 124, 40, 89, 90, 3, 226, 147, 160, 141, 239, 105]
  else if data = utf8 "alice-token" ++ List.replicate 32 1 then
    #v[29, 20, 10, 179, 54, 178, 196, 121, 30, 149, 144, 144, 28, 166, 55, 209,
      13, 188, 152, 128, 1, 126, 88, 217, 4, 193, 67, 93, 239, 62, 217, 99]
  else if data = utf8 "alice:visitor:0.0.0.0:8080" then
    #v[114, 83, 206, 42, 112, 40, 137, 90, 253, 109, 170, 28, 221, 159, 90, 178,
      125, 16, 99, 11, 92, 171, 128, 182, 212, 157, 243, 223, 206, 132, 144, 119]
  else Vector.replicate 32 0

def sampleService : ServerServiceConfig where
  serviceType := .tcp
  name := "web"
  bindAddr := "0.0.0.0:80"
  user := some "alice"
  token := some "alice-token"
  nodelay := none

def sampleConfig : ServerConfig where
  bindAddr := "0.0.0.0:2333"
  users := AList.singleton "alice" ⟨some "alice-token", "8000-9000"⟩
  services := AList.singleton "web" sampleService
  transport := ⟨.tcp, ⟨true, 20, 8, none⟩, none, none⟩
  heartbeatInterval := 30

/-- The digest of the sample's service. -/
def webDigest : Digest := serviceDigest sampleDigest "alice" "web"

def zeros : Nonce := Vector.replicate 32 0

def ones : Nonce := Vector.replicate 32 1

/-- The session key of a control channel that was sent a nonce of zeros. -/
def webKey : Nonce := sampleDigest (challenge (some "alice-token") zeros)

/-- Connection 0 asks for the service and is looked up. -/
def askForWeb : List Action :=
  [.accept 0,
    .conn 0 (.receive (.hello (.controlChannelHello 1 webDigest)) zeros),
    .conn 0 .proceed, .conn 0 .proceed]

/-- It answers correctly, gets the lock and is told so. -/
def registerWeb : List Action :=
  [.conn 0 (.receive (.auth webKey) zeros), .conn 0 .proceed, .conn 0 .proceed]

end Rathole.Server
