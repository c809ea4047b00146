import Rathole.Server.Interleaving

/-!
# Contention for the control channels

A data channel is handed over under a read guard of the control channels, and
the queue it goes into is bounded: with nobody to take streams out of it, the
task that finds it full waits with the guard in its hand, and no handshake of
another service and no hot reload gets the write lock. `lock_not_held_iff` says
which steps lead to such a state: a lookup that finds the queue full, and a
hand-over that fills it under the eyes of another task.
-/

namespace Rathole.Server

open Runs

/-- The task `c` holds a read guard and has a stream for the handle of
`owner`. -/
def State.Waits (s : State) (c owner : ConnId) : Prop :=
  ∃ conn key, s.conns.lookup c = some conn ∧ conn.pc = .handOver key owner

/-- The queue of `owner` takes no stream. -/
def State.Full (s : State) (owner : ConnId) : Prop :=
  (s.dataChannel owner).closed = false ∧
    dataChannelCapacity ≤
      (s.dataChannel owner).sent.length - (s.dataChannel owner).taken

/-- Some task holds the lock and waits for a queue. -/
def State.LockHeld (s : State) : Prop := ∃ c owner, s.Waits c owner ∧ s.Full owner

/-- The next stream fills the queue of `owner`. -/
def State.LastRoom (s : State) (owner : ConnId) : Prop :=
  (s.dataChannel owner).closed = false ∧
    (s.dataChannel owner).sent.length - (s.dataChannel owner).taken + 1 =
      dataChannelCapacity

/-- A data channel looks for its handle, with the lock free to be read. -/
def State.Finds (s : State) (a : Action) (c owner : ConnId) : Prop :=
  a = .conn c .proceed ∧ s.channelsReadable = true ∧
    ∃ conn key handle, s.conns.lookup c = some conn ∧ conn.pc = .lockData key ∧
      s.controlChannels.get2 key = some handle ∧ handle.owner = owner

/-- No lookup finds a full queue, and no hand-over fills a queue that another
task is about to send into. -/
structure LeavesRoom (s : State) (a : Action) : Prop where
  lookup : ∀ c owner, s.Finds a c owner → ¬ s.Full owner
  handOver : ∀ c owner, a = .conn c .proceed → s.Waits c owner →
    s.LastRoom owner → ∀ c', s.Waits c' owner → c' = c

section

variable {digest : Bytes → Digest} {s t : State} {a : Action}

/-- While a task waits for a queue nobody gets the write lock. -/
theorem State.LockHeld.excludes (h : s.LockHeld) :
    s.channelsWritable = false := by
  obtain ⟨c, owner, ⟨conn, key, hconn, hpc⟩, -⟩ := h
  unfold State.channelsWritable
  rw [Bool.and_eq_false_iff]
  right
  rw [Bool.not_eq_false']
  by_contra hnone
  have hall := someConn_eq_false.mp (Bool.not_eq_true _ ▸ hnone) c conn hconn
  rw [hpc] at hall
  cases hall

/-! ## How a task comes to wait -/

theorem receive_plain {config : ServerConfig} {conn conn' : Conn}
    {m : PacketMessage} {nonce : Nonce}
    (h : receive digest config conn m nonce = some conn') :
    conn'.pc.plain = true := by
  unfold receive at h
  split at h
  · split at h <;> cases h <;> rfl
  · split at h
    · cases h
      rfl
    · dsimp only at h
      split at h <;> cases h <;> rfl
  · split at h
    · cases h
      rfl
    · split at h <;> cases h <;> rfl
  · cases h

/-- A task that stands at the hand-over has stood there or has just found the
handle. -/
theorem localStep_handOver {c : ConnId} {conn conn' : Conn} {l : Local}
    {e : Effect} (h : localStep digest s c conn l = some (conn', e))
    {key : Nonce} {owner : ConnId} (hpc : conn'.pc = .handOver key owner) :
    (conn.pc = .handOver key owner ∧ l ≠ .proceed) ∨
      (l = .proceed ∧ s.channelsReadable = true ∧ conn.pc = .lockData key ∧
        ∃ handle, s.controlChannels.get2 key = some handle ∧
          handle.owner = owner) := by
  cases l with
  | receive m nonce =>
      obtain ⟨conn', hrecv, heq⟩ := Option.map_eq_some_iff.mp h
      cases heq
      have hplain := receive_plain hrecv
      rw [hpc] at hplain
      cases hplain
  | abort =>
      obtain ⟨conn', habort, heq⟩ := Option.map_eq_some_iff.mp h
      cases heq
      unfold abort at habort
      split at habort
      · cases habort
      · cases habort
        cases hpc
  | confirm =>
      obtain ⟨x, hx, heq⟩ := Option.map_eq_some_iff.mp h
      cases heq
      exact Or.inl ⟨hpc, by simp⟩
  | command =>
      simp only [localStep] at h
      split at h
      · cases h
        exact Or.inl ⟨hpc, by simp⟩
      · cases h
  | proceed =>
      right
      obtain ⟨pc, trace, session⟩ := conn
      cases pc with
      | lockData k =>
          simp only [localStep, proceed] at h
          split at h
          · rename_i hread
            split at h
            · rename_i handle hhandle
              cases h
              cases hpc
              exact ⟨rfl, hread, rfl, handle, hhandle, rfl⟩
            · cases h
              cases hpc
          · cases h
      | lookupService d nonce =>
          simp only [localStep, proceed] at h
          split at h
          · split at h <;> cases h <;> cases hpc
          · cases h
      | lockControl d k service =>
          simp only [localStep, proceed] at h
          split at h
          · cases h
            cases hpc
          · cases h
      | handOver k o =>
          simp only [localStep, proceed] at h
          split at h
          · cases h
            cases hpc
          · split at h
            · cases h
              cases hpc
            · cases h
      | lockVisitor v =>
          simp only [localStep, proceed] at h
          split at h
          · cases h
            cases hpc
          · cases h
      | readHello => cases h
      | readAuth d nonce service => cases h
      | readVisitorAuth nonce => cases h
      | finished outcome => cases h
      | _ =>
          cases h
          cases hpc

theorem waits_step (hs : step digest s a = some t) {c owner : ConnId}
    (h : t.Waits c owner) :
    (s.Waits c owner ∧ a ≠ .conn c .proceed) ∨ s.Finds a c owner := by
  obtain ⟨conn, key, hconn, hpc⟩ := h
  by_cases ha : a = .conn c .proceed
  · subst ha
    obtain ⟨conn₀, conn', e, hconn₀, hlocal, rfl⟩ := step_conn hs
    rw [lookup_setConn_self] at hconn
    cases hconn
    rcases localStep_handOver hlocal hpc with ⟨-, hne⟩ |
      ⟨-, hread, hdata, handle, hget, howner⟩
    · exact absurd rfl hne
    · exact Or.inr ⟨rfl, hread, conn₀, key, handle, hconn₀, hdata, hget, howner⟩
  · left
    refine ⟨?_, ha⟩
    rcases lookup_of_step hs hconn with hold | ⟨-, -, rfl⟩ |
      ⟨l, conn₀, e, rfl, hconn₀, hlocal, -⟩
    · exact ⟨conn, key, hold, hpc⟩
    · cases hpc
    · rcases localStep_handOver hlocal hpc with ⟨hpc₀, -⟩ | ⟨rfl, -⟩
      · exact ⟨conn₀, key, hconn₀, hpc₀⟩
      · exact absurd rfl ha

/-! ## How a queue becomes full -/

theorem localStep_hand {c : ConnId} {conn conn' : Conn} {l : Local}
    {owner : ConnId}
    (h : localStep digest s c conn l = some (conn', .hand owner)) :
    l = .proceed ∧ (∃ key, conn.pc = .handOver key owner) ∧
      (s.dataChannel owner).closed = false ∧
      (s.dataChannel owner).sent.length - (s.dataChannel owner).taken <
        dataChannelCapacity := by
  cases shape_localStep h with
  | hand hpc hpc' hkey =>
      rename_i key
      refine ⟨rfl, ⟨key, hpc⟩, ?_⟩
      simp only [localStep, proceed, hpc] at h
      split at h
      · cases h
      · rename_i hopen
        split at h
        · rename_i hroom
          exact ⟨Bool.not_eq_true _ ▸ hopen, hroom⟩
        · cases h

theorem dataChannel_apply {c owner : ConnId} {e : Effect}
    (h : e ≠ .hand owner) : (s.apply c e).dataChannel owner =
      s.dataChannel owner := by
  cases e with
  | hand o =>
      show (s.setDataChannel o _).dataChannel owner = _
      rw [dataChannel_setDataChannel, if_neg]
      rintro rfl
      exact h rfl
  | _ => simp [State.apply, State.dataChannel, State.drop]

theorem dataChannel_mainShape (h : MainShape s t) (owner : ConnId) :
    t.dataChannel owner = s.dataChannel owner := by
  cases h <;> rfl

theorem full_step (hs : step digest s a = some t) {owner : ConnId}
    (h : t.Full owner) :
    s.Full owner ∨
      ∃ c, a = .conn c .proceed ∧ s.Waits c owner ∧ s.LastRoom owner := by
  have hkeep (heq : t.dataChannel owner = s.dataChannel owner) :
      s.Full owner := by
    unfold State.Full at h ⊢
    rwa [heq] at h
  cases a with
  | conn c l =>
      obtain ⟨conn, conn', e, hconn, hlocal, rfl⟩ := step_conn hs
      by_cases he : e = .hand owner
      · subst he
        obtain ⟨rfl, ⟨key, hpc⟩, hopen, hroom⟩ := localStep_hand hlocal
        refine Or.inr ⟨c, rfl, ⟨conn, key, hconn, hpc⟩, hopen, ?_⟩
        -- the stream that was sent has filled the queue
        have hfull := h.2
        change dataChannelCapacity ≤ ((s.setDataChannel owner _).dataChannel
          owner).sent.length - ((s.setDataChannel owner _).dataChannel
          owner).taken at hfull
        rw [dataChannel_setDataChannel, if_pos rfl] at hfull
        simp only [List.length_append, List.length_singleton] at hfull
        unfold dataChannelCapacity at *
        omega
      · exact Or.inl (hkeep (dataChannel_apply he))
  | take o =>
      simp only [step] at hs
      split at hs
      · cases hs
        unfold State.Full at h ⊢
        rw [dataChannel_setDataChannel] at h
        split at h
        · rename_i heq
          subst heq
          exact Or.inl ⟨h.1, by have := h.2; dsimp only at this; omega⟩
        · exact Or.inl h
      · cases hs
  | close o =>
      cases hs
      unfold State.Full at h ⊢
      rw [dataChannel_setDataChannel] at h
      split at h
      · cases h.1
      · exact Or.inl h
  | accept c =>
      cases shape_step hs with
      | accept hmain hnone => exact Or.inl (hkeep rfl)
      | pool ha hsent => rcases ha with ha | ha <;> cases ha
  | reload change =>
      cases shape_step hs with
      | reload hmain =>
          left
          apply hkeep
          unfold startReload
          split <;> rfl
      | pool ha hsent => rcases ha with ha | ha <;> cases ha
  | main order =>
      exact Or.inl (hkeep (dataChannel_mainShape (shape_mainStep hs) owner))
  | shutdown =>
      cases shape_step hs with
      | shutdown hmain => exact Or.inl (hkeep rfl)
      | pool ha hsent => rcases ha with ha | ha <;> cases ha

/-! ## The two steps that lead there -/

theorem finds_step {c owner : ConnId} (h : s.Finds a c owner)
    (hs : step digest s a = some t) :
    t.Waits c owner ∧ t.dataChannel owner = s.dataChannel owner := by
  obtain ⟨rfl, hread, conn, key, handle, hconn, hpc, hget, howner⟩ := h
  obtain ⟨conn₀, conn', e, hconn₀, hlocal, rfl⟩ := step_conn hs
  cases hconn.symm.trans hconn₀
  simp only [localStep, proceed, hpc, hread, if_true, hget] at hlocal
  cases hlocal
  exact ⟨⟨_, key, lookup_setConn_self, by rw [← howner]; rfl⟩, rfl⟩

theorem fills_step {c owner : ConnId} (hwaits : s.Waits c owner)
    (hlast : s.LastRoom owner)
    (hs : step digest s (.conn c .proceed) = some t) : t.Full owner := by
  obtain ⟨conn, key, hconn, hpc⟩ := hwaits
  obtain ⟨hopen, hroom⟩ := hlast
  obtain ⟨conn₀, conn', e, hconn₀, hlocal, rfl⟩ := step_conn hs
  cases hconn.symm.trans hconn₀
  have hlt : (s.dataChannel owner).sent.length - (s.dataChannel owner).taken <
      dataChannelCapacity := by omega
  simp only [localStep, proceed, hpc] at hlocal
  change (if (s.dataChannel owner).closed = true then _
    else if (s.dataChannel owner).sent.length - (s.dataChannel owner).taken <
      dataChannelCapacity then _ else none) = _ at hlocal
  rw [if_neg (by simp [hopen]), if_pos hlt] at hlocal
  cases hlocal
  have hch : (((s.apply c (.hand owner)).setConn c (conn.goto (.finished
      (.handedOver key owner)) [])).dataChannel owner) =
        { s.dataChannel owner with
          sent := (s.dataChannel owner).sent ++ [c] } := by
    show (s.setDataChannel owner _).dataChannel owner = _
    rw [dataChannel_setDataChannel, if_pos rfl]
  unfold State.Full
  rw [hch]
  refine ⟨hopen, ?_⟩
  simp only [List.length_append, List.length_singleton]
  unfold dataChannelCapacity at *
  omega

/-- A waiting task goes on waiting while another one steps. -/
theorem waits_of_other {c c' owner : ConnId} (hwaits : s.Waits c' owner)
    (hne : c' ≠ c) {l : Local} (hs : step digest s (.conn c l) = some t) :
    t.Waits c' owner := by
  obtain ⟨conn, key, hconn, hpc⟩ := hwaits
  obtain ⟨conn₀, conn', e, -, -, rfl⟩ := step_conn hs
  refine ⟨conn, key, ?_, hpc⟩
  rw [lookup_setConn, if_neg hne, apply_conns]
  exact hconn

/-- **Step lemma.** -/
theorem lockHeld_step (h : ¬ s.LockHeld) (hs : step digest s a = some t) :
    ¬ t.LockHeld ↔ LeavesRoom s a := by
  constructor
  · intro hfree
    constructor
    · intro c owner hfinds hfull
      obtain ⟨hwaits, hch⟩ := finds_step hfinds hs
      refine hfree ⟨c, owner, hwaits, ?_⟩
      unfold State.Full at hfull ⊢
      rwa [hch]
    · rintro c owner rfl hwaits hlast c' hwaits'
      by_contra hne
      exact hfree ⟨c', owner, waits_of_other hwaits' hne hs,
        fills_step hwaits hlast hs⟩
  · rintro hroom ⟨c, owner, hwaits, hfull⟩
    rcases waits_step hs hwaits with ⟨hold, hother⟩ | hfinds
    · rcases full_step hs hfull with hfull' | ⟨c', rfl, hwaits', hlast⟩
      · exact h ⟨c, owner, hold, hfull'⟩
      · have heq := hroom.handOver c' owner rfl hwaits' hlast c hold
        rw [heq] at hother
        exact hother rfl
    · rcases full_step hs hfull with hfull' | ⟨c', rfl, hwaits', hlast⟩
      · exact hroom.lookup c owner hfinds hfull'
      · -- the task that finds the handle is not the one that hands over
        obtain ⟨ha, -, conn, key, handle, hconn, hpc, -⟩ := hfinds
        cases ha
        obtain ⟨conn', key', hconn', hpc'⟩ := hwaits'
        cases hconn.symm.trans hconn'
        rw [hpc] at hpc'
        cases hpc'

/-- A task that holds a guard of the control channels gets on, unless it waits
for a queue. -/
theorem holder_proceeds (h : ¬ s.LockHeld) {c : ConnId} {conn : Conn}
    (hconn : s.conns.lookup c = some conn)
    (hholds : conn.pc.readsChannels = true ∨ conn.pc.writesChannels = true) :
    ∃ r, localStep digest s c conn .proceed = some r := by
  cases hpc : conn.pc with
  | handOver key owner =>
      by_cases hopen : (s.dataChannel owner).closed = true
      · refine ⟨(conn.goto (.finished (.bailed
          "Data channel for a stale control channel")) [], .none), ?_⟩
        simp only [localStep, proceed, hpc]
        exact if_pos hopen
      · by_cases hroom : (s.dataChannel owner).sent.length -
          (s.dataChannel owner).taken < dataChannelCapacity
        · refine ⟨(conn.goto (.finished (.handedOver key owner)) [],
            .hand owner), ?_⟩
          simp only [localStep, proceed, hpc]
          exact (if_neg hopen).trans (if_pos hroom)
        · exact absurd ⟨c, owner, ⟨conn, key, hconn, hpc⟩,
            Bool.not_eq_true _ ▸ hopen, Nat.le_of_not_lt hroom⟩ h
  | sendAck d key service =>
      exact ⟨_, by simp only [localStep, proceed, hpc]; rfl⟩
  | _ =>
      rw [hpc] at hholds
      rcases hholds with hholds | hholds <;> cases hholds

/-- The step does not lead to a task that holds the lock and waits. -/
def KeepsLockFree (digest : Bytes → Digest) (s : State) (a : Action) : Prop :=
  ∀ t, step digest s a = some t → ¬ t.LockHeld

theorem step_of_localStep {c : ConnId} {conn : Conn} {l : Local}
    {r : Conn × Effect} (hconn : s.conns.lookup c = some conn)
    (hlocal : localStep digest s c conn l = some r) :
    step digest s (.conn c l) = some ((s.apply c r.2).setConn c r.1) := by
  simp only [step]
  rw [hconn]
  dsimp only
  rw [hlocal]
  rfl

theorem keepsLockFree_iff (h : ¬ s.LockHeld) :
    KeepsLockFree digest s a ↔ LeavesRoom s a := by
  cases hs : step digest s a with
  | some t =>
      rw [← lockHeld_step h hs]
      constructor
      · exact fun hfree => hfree t hs
      · intro hfree t' ht'
        rw [hs] at ht'
        cases ht'
        exact hfree
  | none =>
      -- the two steps of `LeavesRoom` are possible when they are at issue
      constructor
      · intro _
        constructor
        · rintro c owner ⟨rfl, hread, conn, key, handle, hconn, hpc, hget, -⟩ -
          have hlocal : localStep digest s c conn .proceed =
              some (conn.goto (.handOver key handle.owner) [], .none) := by
            simp only [localStep, proceed, hpc, hread, if_true, hget]
          rw [step_of_localStep hconn hlocal] at hs
          cases hs
        · rintro c owner rfl ⟨conn, key, hconn, hpc⟩ - c' -
          obtain ⟨r, hlocal⟩ : ∃ r, localStep digest s c conn .proceed =
            some r := holder_proceeds h hconn (Or.inl (by rw [hpc]; rfl))
          rw [step_of_localStep hconn hlocal] at hs
          cases hs
      · intro _ t ht
        rw [hs] at ht
        cases ht

end

theorem not_lockHeld_init (digest : Bytes → Digest) (config : ServerConfig) :
    ¬ (init digest config).LockHeld := by
  rintro ⟨c, owner, ⟨conn, key, hconn, -⟩, -⟩
  cases hconn

/-- **Contention.** In a run of the server no task ever waits for a full queue
with the lock of the control channels in its hand exactly if every step leaves
room; and in every state reached in such a run whoever holds the lock can get
on. -/
theorem lock_not_held_iff (digest : Bytes → Digest) (config : ServerConfig)
    (as : List Action) :
    (Meets (step digest) (KeepsLockFree digest) (init digest config) as ↔
      Meets (step digest) LeavesRoom (init digest config) as) ∧
    (Meets (step digest) LeavesRoom (init digest config) as →
      ∀ t, Run (step digest) (init digest config) as t → ¬ t.LockHeld ∧
        ∀ c conn, t.conns.lookup c = some conn →
          (conn.pc.readsChannels = true ∨ conn.pc.writesChannels = true) →
          ∃ r, localStep digest t c conn .proceed = some r) := by
  constructor
  · exact meets_congr (I := fun s => ¬ s.LockHeld)
      (fun s a hs => keepsLockFree_iff hs)
      (fun s a t _ hfree hs => hfree t hs) (not_lockHeld_init digest config)
  · intro hmeets t hrun
    have hfree : ¬ t.LockHeld := run_preserves_of_meets
      (I := fun s => ¬ s.LockHeld)
      (fun s a t hs hroom hstep => (lockHeld_step hs hstep).mpr hroom)
      (not_lockHeld_init digest config) hmeets hrun
    exact ⟨hfree, fun c conn hconn hholds => holder_proceeds hfree hconn hholds⟩

/-! ## A peer that opens data channels for nobody -/

/-- Connection `c` presents the session key and finds the handle. -/
def knock (c : ConnId) : List Action :=
  [.accept c, .conn c (.receive (.hello (.dataChannelHello 1 webKey)) zeros),
    .conn c .proceed]

/-- `n` streams wait in the queue of connection 0, and no visitor comes. -/
structure Flooded (n : Nat) (s : State) : Prop where
  idle : s.main = .idle
  fresh : ∀ c, n < c → s.conns.lookup c = none
  readable : ∀ c conn, s.conns.lookup c = some conn →
    conn.pc.writesChannels = false
  handle : ∃ h, s.controlChannels.get2 webKey = some h ∧ h.owner = 0
  opened : (s.dataChannel 0).closed = false
  untaken : (s.dataChannel 0).taken = 0
  queued : (s.dataChannel 0).sent.length = n

theorem Flooded.knock {n : Nat} {s : State} (h : Flooded n s) :
    ∃ t conn, Run (step sampleDigest) s (knock (n + 1)) t ∧
      t.conns.lookup (n + 1) = some conn ∧
      conn.pc = .handOver webKey 0 ∧
      (∀ c, c ≠ n + 1 → t.conns.lookup c = s.conns.lookup c) ∧
      t.main = s.main ∧ t.controlChannels = s.controlChannels ∧
      t.dataChannels = s.dataChannels := by
  obtain ⟨handle, hget, howner⟩ := h.handle
  have haccept : step sampleDigest s (.accept (n + 1)) =
      some (s.setConn (n + 1) ⟨.readHello, [], none⟩) :=
    if_pos ⟨h.idle, h.fresh (n + 1) (Nat.lt_succ_self n)⟩
  have hreceive : step sampleDigest (s.setConn (n + 1) ⟨.readHello, [], none⟩)
      (.conn (n + 1) (.receive (.hello (.dataChannelHello 1 webKey)) zeros)) =
        some _ := step_of_localStep lookup_setConn_self rfl
  have hreadable (conn : Conn) (hpc : conn.pc.writesChannels = false)
      (conn₀ : Conn) : ((s.setConn (n + 1) conn₀).setConn (n + 1)
        conn).channelsReadable = true := by
    rw [channelsReadable_iff]
    intro c conn' hconn'
    rw [lookup_setConn, lookup_setConn] at hconn'
    split at hconn'
    · cases hconn'
      exact hpc
    · exact h.readable c conn' hconn'
  have hlocal : localStep sampleDigest ((s.setConn (n + 1)
      ⟨.readHello, [], none⟩).setConn (n + 1) ⟨.lockData webKey,
        [.received (.hello (.dataChannelHello 1 webKey))], none⟩) (n + 1)
      ⟨.lockData webKey, [.received (.hello (.dataChannelHello 1 webKey))],
        none⟩ .proceed = some (⟨.handOver webKey 0,
          [.received (.hello (.dataChannelHello 1 webKey))], none⟩, .none) := by
    have hfound : ((s.setConn (n + 1) ⟨.readHello, [], none⟩).setConn (n + 1)
        ⟨.lockData webKey, [.received (.hello (.dataChannelHello 1 webKey))],
          none⟩).controlChannels.get2 webKey = some handle := hget
    simp only [localStep, proceed]
    rw [if_pos (hreadable _ rfl _), hfound]
    simp [Conn.goto, howner]
  have hproceed := step_of_localStep lookup_setConn_self hlocal
  refine ⟨_, _, run_cons.mpr ⟨_, haccept, run_cons.mpr ⟨_, hreceive,
    run_cons.mpr ⟨_, hproceed, run_nil.mpr rfl⟩⟩⟩, lookup_setConn_self, rfl,
    ?_, rfl, rfl, rfl⟩
  intro c hne
  rw [lookup_setConn, if_neg hne]
  show ((s.setConn _ _).setConn _ _).conns.lookup c = _
  rw [lookup_setConn, if_neg hne, lookup_setConn, if_neg hne]

theorem Flooded.enter {n : Nat} {s : State} (h : Flooded n s)
    (hroom : n < dataChannelCapacity) :
    ∃ t, Run (step sampleDigest) s
      (Server.knock (n + 1) ++ [.conn (n + 1) .proceed]) t ∧
      Flooded (n + 1) t := by
  obtain ⟨u, conn, hrun, hconn, hpc, hothers, hmain, hchannels, hdata⟩ :=
    h.knock
  have hch : u.dataChannel 0 = s.dataChannel 0 := by
    unfold State.dataChannel
    rw [hdata]
  have hlocal : localStep sampleDigest u (n + 1) conn .proceed =
      some (conn.goto (.finished (.handedOver webKey 0)) [], .hand 0) := by
    simp only [localStep, proceed, hpc]
    change (if (u.dataChannel 0).closed = true then _
      else if (u.dataChannel 0).sent.length - (u.dataChannel 0).taken <
        dataChannelCapacity then _ else none) = _
    rw [hch, if_neg (by simp [h.opened]), if_pos (by rw [h.queued, h.untaken]; exact hroom)]
  refine ⟨_, run_snoc.mpr ⟨u, hrun, step_of_localStep hconn hlocal⟩, ?_⟩
  have hlookup {c : ConnId} (hne : c ≠ n + 1) :
      ((u.apply (n + 1) (.hand 0)).setConn (n + 1) (conn.goto
        (.finished (.handedOver webKey 0)) [])).conns.lookup c =
          s.conns.lookup c := by
    rw [lookup_setConn, if_neg hne, apply_conns, hothers c hne]
  have hqueue : ((u.apply (n + 1) (.hand 0)).setConn (n + 1) (conn.goto
      (.finished (.handedOver webKey 0)) [])).dataChannel 0 =
        { s.dataChannel 0 with
          sent := (s.dataChannel 0).sent ++ [n + 1] } := by
    show (u.setDataChannel 0 _).dataChannel 0 = _
    rw [dataChannel_setDataChannel, if_pos rfl, hch]
  constructor
  · exact (apply_main (s := u)).trans (hmain.trans h.idle)
  · intro c hc
    have hne : c ≠ n + 1 := Nat.ne_of_gt hc
    rw [hlookup hne]
    exact h.fresh c (Nat.lt_of_succ_lt hc)
  · intro c conn' hconn'
    by_cases hne : c = n + 1
    · subst hne
      rw [lookup_setConn_self] at hconn'
      cases hconn'
      rfl
    · rw [hlookup hne] at hconn'
      exact h.readable c conn' hconn'
  · show ∃ h, u.controlChannels.get2 webKey = some h ∧ h.owner = 0
    rw [hchannels]
    exact h.handle
  · rw [hqueue]
    exact h.opened
  · rw [hqueue]
    exact h.untaken
  · rw [hqueue, List.length_append, h.queued]
    rfl

theorem flooded_zero : ∃ s,
    Run (step sampleDigest) (init sampleDigest sampleConfig)
      (askForWeb ++ registerWeb) s ∧ Flooded 0 s := by
  have hrun : ∃ s conn h,
      Run (step sampleDigest) (init sampleDigest sampleConfig)
        (askForWeb ++ registerWeb) s ∧ s.main = .idle ∧
      s.conns.entries = [⟨0, conn⟩] ∧ conn.pc.writesChannels = false ∧
      s.controlChannels.get2 webKey = some h ∧ h.owner = 0 ∧
      s.dataChannel 0 = DataChannel.new :=
    ⟨_, _, _, rfl, rfl, rfl, rfl, rfl, rfl, rfl⟩
  obtain ⟨s, conn, h, hrun, hmain, hconns, hpc, hget, howner, hch⟩ := hrun
  have honly {c : ConnId} {conn' : Conn}
      (hconn' : s.conns.lookup c = some conn') : c = 0 ∧ conn' = conn := by
    have hmem := HashMap.mem_entries_iff.mpr hconn'
    rw [hconns, List.mem_singleton] at hmem
    cases hmem
    exact ⟨rfl, rfl⟩
  refine ⟨s, hrun, hmain, ?_, ?_, ⟨h, hget, howner⟩, ?_, ?_, ?_⟩
  · intro c hc
    by_contra hsome
    obtain ⟨conn', hconn'⟩ := Option.ne_none_iff_exists'.mp hsome
    exact Nat.ne_of_gt hc (honly hconn').1
  · intro c conn' hconn'
    rw [(honly hconn').2]
    exact hpc
  all_goals
    rw [hch]
    rfl

theorem flooded (n : Nat) (hn : n ≤ dataChannelCapacity) : ∃ as s,
    Run (step sampleDigest) (init sampleDigest sampleConfig) as s ∧
      Flooded n s := by
  induction n with
  | zero =>
      obtain ⟨s, hrun, h⟩ := flooded_zero
      exact ⟨_, s, hrun, h⟩
  | succ n ih =>
      obtain ⟨as, s, hrun, h⟩ := ih (Nat.le_of_succ_le hn)
      obtain ⟨t, hrun', h'⟩ := h.enter hn
      exact ⟨_, t, run_append.mpr ⟨s, hrun, hrun'⟩, h'⟩

/-- With 4096 streams in the queue one more data channel holds the lock, and
nobody gets it for writing. -/
theorem data_channels_hold_lock : ∃ as s,
    Run (step sampleDigest) (init sampleDigest sampleConfig) as s ∧
      s.LockHeld ∧ s.channelsWritable = false := by
  obtain ⟨as, s, hrun, h⟩ := flooded dataChannelCapacity (Nat.le_refl _)
  obtain ⟨t, conn, hrun', hconn, hpc, -, -, -, hdata⟩ := h.knock
  have hheld : t.LockHeld := by
    refine ⟨_, 0, ⟨conn, webKey, hconn, hpc⟩, ?_⟩
    have hch : t.dataChannel 0 = s.dataChannel 0 := by
      unfold State.dataChannel
      rw [hdata]
    unfold State.Full
    rw [hch, h.queued, h.untaken]
    exact ⟨h.opened, Nat.le_refl _⟩
  exact ⟨_, t, run_append.mpr ⟨s, hrun, hrun'⟩, hheld, hheld.excludes⟩

end Rathole.Server
