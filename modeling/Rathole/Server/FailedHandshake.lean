import Mathlib.Data.List.Induction
import Rathole.Server.SessionKeys

/-!
# Handshakes that fail

What a failed handshake leaves behind. A run is compared with the run of the
other tasks alone, `without` the actions of one connection: the others never
notice it, but for one thing. `do_control_channel_handshake` removes the entry
of its service before it writes `Ack::Ok`, and a write that fails leaves the
service without an entry; `do_visitor_channel_handshake` writes first.
-/

namespace Rathole.Server

open Runs

/-- The connection `c` takes this step. -/
def Action.isOf (c : ConnId) : Action → Bool
  | .accept c' => decide (c' = c)
  | .conn c' _ => decide (c' = c)
  | _ => false

/-- The run of everybody else. -/
def without (c : ConnId) (as : List Action) : List Action :=
  as.filter (fun a => !a.isOf c)

/-- The handshake of `c` has removed the entry of `d` and is writing. -/
def State.Holding (s : State) (c : ConnId) (d : Digest) : Prop :=
  ∃ conn k service, s.conns.lookup c = some conn ∧
    conn.pc = .sendAck d k service

/-- The handshake of `c` has returned an error. -/
def State.Failed (s : State) (c : ConnId) : Prop :=
  Finished s c .aborted ∨ ∃ message, Finished s c (.bailed message)

/-- `s'` is `s` but for the connection `c`, which `s'` does not have. -/
structure Besides (c : ConnId) (s s' : State) : Prop where
  config : s'.config = s.config
  services : s'.services = s.services
  main : s'.main = s.main
  dataChannels : s'.dataChannels = s.dataChannels
  conns : ∀ c', s'.conns.lookup c' =
    if c' = c then none else s.conns.lookup c'
  held : ∀ d, s.Holding c d →
    s.controlChannels = (s'.controlChannels.remove1 d).2
  free : (∀ d, ¬ s.Holding c d) → s.controlChannels = s'.controlChannels

section

variable {digest : Bytes → Digest} {c : ConnId} {s s' t : State} {a : Action}

/-! ## Locks -/

theorem Besides.someConn (h : Besides c s s') {p : Pc → Bool}
    (hp : s.someConn p = false) : s'.someConn p = false := by
  rw [someConn_eq_false] at hp ⊢
  intro c' conn hconn
  rw [h.conns] at hconn
  split at hconn
  · cases hconn
  · exact hp c' conn hconn

theorem Besides.channelsReadable (h : Besides c s s')
    (hr : s.channelsReadable = true) : s'.channelsReadable = true := by
  unfold State.channelsReadable at hr ⊢
  rw [Bool.not_eq_true'] at hr ⊢
  exact h.someConn hr

theorem Besides.channelsWritable (h : Besides c s s')
    (hw : s.channelsWritable = true) : s'.channelsWritable = true := by
  unfold State.channelsWritable at hw ⊢
  rw [Bool.and_eq_true, Bool.not_eq_true', Bool.not_eq_true'] at hw ⊢
  exact ⟨h.someConn hw.1, h.someConn hw.2⟩

theorem Besides.servicesReadable (h : Besides c s s') :
    s'.servicesReadable = s.servicesReadable := by
  unfold State.servicesReadable
  rw [h.main]

theorem Besides.servicesWritable (h : Besides c s s')
    (hw : s.servicesWritable = true) : s'.servicesWritable = true := by
  unfold State.servicesWritable at hw ⊢
  rw [Bool.not_eq_true'] at hw ⊢
  exact h.someConn hw

/-- Who gets at the channels finds them the same. -/
theorem Besides.channels_eq (h : Besides c s s')
    (hr : s.channelsReadable = true) :
    s.controlChannels = s'.controlChannels := by
  apply h.free
  rintro d ⟨conn, k, service, hconn, hpc⟩
  have hw := channelsReadable_iff.mp hr c conn hconn
  rw [hpc] at hw
  cases hw

/-! ## The steps of the others -/

theorem Besides.proceed (h : Besides c s s') {c' : ConnId} {conn : Conn}
    {r : Conn × Effect} (hs : proceed digest s c' conn = some r) :
    proceed digest s' c' conn = some r := by
  obtain ⟨pc, trace, session⟩ := conn
  cases pc with
  | lookupService d nonce =>
      simp only [Server.proceed] at hs ⊢
      rw [h.servicesReadable, h.services]
      exact hs
  | lockControl d key service =>
      simp only [Server.proceed] at hs ⊢
      split at hs
      · rename_i hw
        rw [if_pos (h.channelsWritable hw)]
        exact hs
      · cases hs
  | sendAck d key service =>
      simp only [Server.proceed] at hs ⊢
      rw [h.config]
      exact hs
  | lockData key =>
      simp only [Server.proceed] at hs ⊢
      split at hs
      · rename_i hr
        rw [if_pos (h.channelsReadable hr), ← h.channels_eq hr]
        exact hs
      · cases hs
  | handOver key owner =>
      simp only [Server.proceed] at hs ⊢
      rw [h.dataChannels]
      exact hs
  | lockVisitor v =>
      simp only [Server.proceed] at hs ⊢
      split at hs
      · rename_i hw
        rw [if_pos (h.channelsWritable hw), h.config]
        exact hs
      · cases hs
  | _ => exact hs

theorem Besides.localStep (h : Besides c s s') {c' : ConnId} {conn : Conn}
    {l : Local} {r : Conn × Effect}
    (hs : localStep digest s c' conn l = some r) :
    localStep digest s' c' conn l = some r := by
  cases l with
  | receive m nonce =>
      simp only [Server.localStep] at hs ⊢
      rw [h.config]
      exact hs
  | proceed => exact h.proceed hs
  | _ => exact hs

theorem drop_channels_congr (hcc : s.controlChannels = s'.controlChannels)
    (d : Digest) (cause : Cause) :
    (s.drop d cause).controlChannels = (s'.drop d cause).controlChannels := by
  show (s.controlChannels.remove1 d).2 = (s'.controlChannels.remove1 d).2
  rw [hcc]

theorem apply_channels_congr {c' : ConnId} {e : Effect}
    (hcc : s.controlChannels = s'.controlChannels) :
    (s.apply c' e).controlChannels = (s'.apply c' e).controlChannels := by
  have hinstall (u u' : State) (huu : u.controlChannels = u'.controlChannels)
      (d : Digest) (k : Nonce) (handle : Handle) :
      (u.install d k handle).controlChannels =
        (u'.install d k handle).controlChannels := by
    unfold State.install
    rw [huu]
    split
    · rfl
    · exact huu
  cases e with
  | none => exact hcc
  | drop d => exact drop_channels_congr hcc d _
  | install d k handle => exact hinstall s s' hcc d k handle
  | replace d k handle =>
      exact hinstall _ _ (drop_channels_congr hcc d _) d k handle
  | hand owner => exact hcc

theorem apply_dataChannels_congr {c' : ConnId} {e : Effect}
    (hch : s'.dataChannels = s.dataChannels) :
    (s'.apply c' e).dataChannels = (s.apply c' e).dataChannels := by
  cases e with
  | install d k handle =>
      simp only [State.apply, install_dataChannels]
      exact hch
  | replace d k handle =>
      simp only [State.apply, install_dataChannels]
      exact hch
  | hand owner =>
      simp only [State.apply, State.setDataChannel, State.dataChannel]
      rw [hch]
  | _ => exact hch

theorem State.Holding.not_readable {d : Digest} (h : s.Holding c d) :
    s.channelsReadable ≠ true := by
  obtain ⟨conn, k, service, hconn, hpc⟩ := h
  intro hr
  have hw := channelsReadable_iff.mp hr c conn hconn
  rw [hpc] at hw
  cases hw

/-- While `c` holds the guard, the others leave the channels alone. -/
theorem State.Holding.apply_channels {d : Digest} (h : s.Holding c d)
    (hone : GuardAlone s) {c' : ConnId} (hne : c' ≠ c) {conn : Conn} {l : Local}
    {conn' : Conn} {e : Effect} (hconn : s.conns.lookup c' = some conn)
    (hs : localStep digest s c' conn l = some (conn', e)) (u : State) :
    (u.apply c' e).controlChannels = u.controlChannels := by
  cases shape_localStep hs with
  | quiet => rfl
  | drop hlock => exact absurd (channelsReadable_of_writable hlock) h.not_readable
  | install hpc =>
      obtain ⟨conn₀, k, service, hconn₀, hpc₀⟩ := h
      refine absurd (hone c' c conn conn₀ hconn hconn₀ ?_ ?_) hne
      · rw [hpc]
        rfl
      · rw [hpc₀]
        rfl
  | replace hlock =>
      exact absurd (channelsReadable_of_writable hlock) h.not_readable
  | hand => rfl

/-- A step of the others, as far as the comparison goes. -/
theorem Besides.moved (h : Besides c s s') {t' : State}
    (hconfig : t'.config = t.config) (hservices : t'.services = t.services)
    (hmain : t'.main = t.main) (hdata : t'.dataChannels = t.dataChannels)
    (hconns : ∀ c', t'.conns.lookup c' =
      if c' = c then none else t.conns.lookup c')
    (hown : t.conns.lookup c = s.conns.lookup c)
    (hcc : (t.controlChannels = s.controlChannels ∧
        t'.controlChannels = s'.controlChannels) ∨
      ((∀ d, ¬ s.Holding c d) ∧ t.controlChannels = t'.controlChannels)) :
    Besides c t t' := by
  have hhold (d : Digest) : t.Holding c d ↔ s.Holding c d := by
    unfold State.Holding
    rw [hown]
  refine ⟨hconfig, hservices, hmain, hdata, hconns, ?_, ?_⟩
  · intro d hd
    rcases hcc with ⟨hcc, hcc'⟩ | ⟨hfree, -⟩
    · rw [hcc, hcc', h.held d ((hhold d).mp hd)]
    · exact absurd ((hhold d).mp hd) (hfree d)
  · intro hnone
    rcases hcc with ⟨hcc, hcc'⟩ | ⟨-, hcc⟩
    · rw [hcc, hcc', h.free (fun d hd => hnone d ((hhold d).mpr hd))]
    · exact hcc

theorem Besides.step_conn (h : Besides c s s') (hone : GuardAlone s)
    {c' : ConnId} (hne : c' ≠ c) {l : Local}
    (hs : step digest s (.conn c' l) = some t) :
    ∃ t', step digest s' (.conn c' l) = some t' ∧ Besides c t t' ∧
      ∀ d, s.Holding c d → t'.controlChannels = s'.controlChannels := by
  obtain ⟨conn, conn', e, hconn, hlocal, rfl⟩ := Server.step_conn hs
  have hconn₂ : s'.conns.lookup c' = some conn := by
    rw [h.conns, if_neg hne]
    exact hconn
  have hs' : step digest s' (.conn c' l) =
      some ((s'.apply c' e).setConn c' conn') := by
    simp only [step, hconn₂, h.localStep hlocal, Option.map_some]
  refine ⟨_, hs', ?_, ?_⟩
  · apply h.moved
    · show (s'.apply c' e).config = (s.apply c' e).config
      rw [apply_config, apply_config, h.config]
    · show (s'.apply c' e).services = (s.apply c' e).services
      rw [apply_services, apply_services, h.services]
    · show (s'.apply c' e).main = (s.apply c' e).main
      rw [apply_main, apply_main, h.main]
    · exact apply_dataChannels_congr h.dataChannels
    · intro c₂
      rw [lookup_setConn, lookup_setConn, apply_conns, apply_conns, h.conns]
      split
      · rename_i heq
        subst heq
        rw [if_neg hne]
      · rfl
    · rw [lookup_setConn, if_neg (Ne.symm hne), apply_conns]
    · by_cases hold : ∃ d, s.Holding c d
      · obtain ⟨d, hd⟩ := hold
        exact Or.inl ⟨hd.apply_channels hone hne hconn hlocal s,
          hd.apply_channels hone hne hconn hlocal s'⟩
      · have hfree : ∀ d, ¬ s.Holding c d := fun d hd => hold ⟨d, hd⟩
        exact Or.inr ⟨hfree, apply_channels_congr (h.free hfree)⟩
  · intro d hd
    exact hd.apply_channels hone hne hconn hlocal s'

theorem Besides.step_main (h : Besides c s s')
    {order : List ((_ : Digest) × ServerServiceConfig)}
    (hs : mainStep s order = some t) :
    ∃ t', mainStep s' order = some t' ∧ Besides c t t' ∧
      ∀ d, s.Holding c d → t'.controlChannels = s'.controlChannels := by
  -- the steps that reach the channels need the lock
  have hfree (hw : s.channelsWritable = true) (d : Digest) : ¬ s.Holding c d :=
    fun hd => hd.not_readable (channelsReadable_of_writable hw)
  unfold mainStep at hs ⊢
  rw [h.main]
  split at hs
  · rename_i hash cfg hmain
    split at hs
    · rename_i hw
      cases hs
      rw [if_pos (h.servicesWritable hw), h.services]
      exact ⟨_, rfl, h.moved h.config rfl rfl h.dataChannels h.conns rfl
        (Or.inl ⟨rfl, rfl⟩), fun _ _ => rfl⟩
    · cases hs
  · rename_i hash hmain
    split at hs
    · rename_i hw
      cases hs
      rw [if_pos (h.channelsWritable hw)]
      refine ⟨_, rfl, h.moved h.config h.services rfl h.dataChannels h.conns rfl
        (Or.inr ⟨hfree hw, ?_⟩), fun d hd => absurd hd (hfree hw d)⟩
      exact drop_channels_congr (h.free (hfree hw)) hash .reload
    · cases hs
  · rename_i name hmain
    split at hs
    · rename_i hscan
      rw [h.servicesReadable, h.services, if_pos hscan]
      split at hs
      · cases hs
        exact ⟨_, rfl, h.moved h.config rfl rfl h.dataChannels h.conns rfl
          (Or.inl ⟨rfl, rfl⟩), fun _ _ => rfl⟩
      · cases hs
        exact ⟨_, rfl, h.moved h.config rfl rfl h.dataChannels h.conns rfl
          (Or.inl ⟨rfl, rfl⟩), fun _ _ => rfl⟩
    · cases hs
  · rename_i hash hmain
    split at hs
    · rename_i hw
      cases hs
      rw [if_pos (h.servicesWritable hw), h.services]
      exact ⟨_, rfl, h.moved h.config rfl rfl h.dataChannels h.conns rfl
        (Or.inl ⟨rfl, rfl⟩), fun _ _ => rfl⟩
    · cases hs
  · rename_i hash hmain
    split at hs
    · rename_i hw
      cases hs
      rw [if_pos (h.channelsWritable hw)]
      refine ⟨_, rfl, h.moved h.config h.services rfl h.dataChannels h.conns rfl
        (Or.inr ⟨hfree hw, ?_⟩), fun d hd => absurd hd (hfree hw d)⟩
      exact drop_channels_congr (h.free (hfree hw)) hash .reload
    · cases hs
  · split at hs
    · rename_i hw
      cases hs
      rw [if_pos (h.channelsWritable hw)]
      refine ⟨_, rfl, h.moved h.config h.services rfl h.dataChannels h.conns rfl
        (Or.inr ⟨hfree hw, ?_⟩), fun d hd => absurd hd (hfree hw d)⟩
      show s.controlChannels.clear = s'.controlChannels.clear
      rw [h.free (hfree hw)]
    · cases hs
  · cases hs
  · cases hs

/-- **Step lemma**: whatever another task does, it does without `c` too. -/
theorem Besides.step_other (h : Besides c s s') (hone : GuardAlone s)
    (ha : a.isOf c = false) (hs : step digest s a = some t) :
    ∃ t', step digest s' a = some t' ∧ Besides c t t' ∧
      ∀ d, s.Holding c d → t'.controlChannels = s'.controlChannels := by
  cases a with
  | accept c' =>
      have hne : c' ≠ c := of_decide_eq_false ha
      simp only [step] at hs ⊢
      split at hs
      · rename_i hcond
        cases hs
        rw [h.main, h.conns, if_neg hne, if_pos hcond]
        refine ⟨_, rfl, h.moved h.config h.services h.main h.dataChannels ?_ ?_
          (Or.inl ⟨rfl, rfl⟩), fun _ _ => rfl⟩
        · intro c₂
          rw [lookup_setConn, lookup_setConn, h.conns]
          split
          · rename_i heq
            subst heq
            rw [if_neg hne]
          · rfl
        · rw [lookup_setConn, if_neg (Ne.symm hne)]
      · cases hs
  | conn c' l => exact h.step_conn hone (of_decide_eq_false ha) hs
  | take owner =>
      have hch : s'.dataChannel owner = s.dataChannel owner := by
        unfold State.dataChannel
        rw [h.dataChannels]
      simp only [step] at hs ⊢
      rw [hch]
      split at hs
      · rename_i htake
        cases hs
        rw [if_pos htake]
        refine ⟨_, rfl, h.moved h.config h.services h.main ?_ h.conns rfl
          (Or.inl ⟨rfl, rfl⟩), fun _ _ => rfl⟩
        simp only [State.setDataChannel]
        rw [h.dataChannels]
      · cases hs
  | close owner =>
      have hch : s'.dataChannel owner = s.dataChannel owner := by
        unfold State.dataChannel
        rw [h.dataChannels]
      cases hs
      refine ⟨_, rfl, h.moved h.config h.services h.main ?_ h.conns rfl
        (Or.inl ⟨rfl, rfl⟩), fun _ _ => rfl⟩
      simp only [State.setDataChannel]
      rw [h.dataChannels, hch]
  | reload change =>
      simp only [step] at hs ⊢
      split at hs
      · rename_i hidle
        cases hs
        rw [h.main, if_pos hidle]
        refine ⟨_, rfl, ?_⟩
        unfold startReload
        split
        · exact ⟨h.moved h.config h.services rfl h.dataChannels h.conns rfl
            (Or.inl ⟨rfl, rfl⟩), fun _ _ => rfl⟩
        · exact ⟨h.moved h.config h.services rfl h.dataChannels h.conns rfl
            (Or.inl ⟨rfl, rfl⟩), fun _ _ => rfl⟩
        · exact ⟨h, fun _ _ => rfl⟩
      · cases hs
  | main order => exact h.step_main hs
  | shutdown =>
      simp only [step] at hs ⊢
      split at hs
      · rename_i hidle
        cases hs
        rw [h.main, if_pos hidle]
        exact ⟨_, rfl, h.moved h.config h.services rfl h.dataChannels h.conns
          rfl (Or.inl ⟨rfl, rfl⟩), fun _ _ => rfl⟩
      · cases hs

/-! ## The steps of the connection itself -/

/-- The handshake of `c` finds no entry to remove when it gets the lock. -/
def Spares (c : ConnId) (s : State) (a : Action) : Prop :=
  ∀ conn d key service, a = .conn c .proceed → s.conns.lookup c = some conn →
    conn.pc = .lockControl d key service →
      ∀ k h, ¬ s.controlChannels.Entry d k h

def State.Unfinished (s : State) (c : ConnId) : Prop := ∀ o, ¬ Finished s c o

/-- Between `Ack::Ok` and its end a handshake only waits. -/
theorem localStep_sendAck {conn conn' : Conn} {l : Local} {e : Effect}
    {d : Digest} {k : Nonce} {service : ServerServiceConfig}
    (hpc : conn.pc = .sendAck d k service)
    (hs : localStep digest s c conn l = some (conn', e)) :
    conn'.pc = conn.pc ∨ ∃ o, conn'.pc = .finished o := by
  obtain ⟨pc, trace, session⟩ := conn
  subst hpc
  cases l with
  | receive m nonce => cases hs
  | proceed =>
      cases hs
      exact Or.inr ⟨_, rfl⟩
  | abort =>
      cases hs
      exact Or.inr ⟨_, rfl⟩
  | confirm =>
      obtain ⟨x, -, heq⟩ := Option.map_eq_some_iff.mp hs
      cases heq
      exact Or.inl rfl
  | command =>
      simp only [localStep] at hs
      split at hs
      · cases hs
        exact Or.inl rfl
      · cases hs

theorem holding_setConn {conn : Conn} {d : Digest} :
    (s.setConn c conn).Holding c d ↔
      ∃ k service, conn.pc = .sendAck d k service := by
  unfold State.Holding
  rw [lookup_setConn_self]
  constructor
  · rintro ⟨_, k, service, ⟨⟩, hpc⟩
    exact ⟨k, service, hpc⟩
  · rintro ⟨k, service, hpc⟩
    exact ⟨conn, k, service, rfl, hpc⟩

/-- A step of a handshake that does not end it: it removes the entry of its
service, or it leaves the channels and the guard as they are. -/
theorem step_unfinished {l : Local} (hs : step digest s (.conn c l) = some t)
    (hun : t.Unfinished c) :
    (∃ conn', t = s.setConn c conn' ∧
      (∀ d, t.Holding c d ↔ s.Holding c d) ∧ Spares c s (.conn c l)) ∨
    ∃ conn conn' d k service, l = .proceed ∧ s.conns.lookup c = some conn ∧
      conn.pc = .lockControl d k service ∧
      t = (s.drop d (.handshake c)).setConn c conn' ∧
      ∀ d', t.Holding c d' ↔ d' = d := by
  obtain ⟨conn, conn', e, hconn, hlocal, rfl⟩ := step_conn hs
  have hrun (o : Outcome) : conn'.pc ≠ .finished o := by
    intro hpc
    exact hun o ⟨conn', lookup_setConn_self, hpc⟩
  cases shape_localStep hlocal with
  | quiet hquiet =>
      refine Or.inl ⟨conn', rfl, ?_, ?_⟩
      · intro d
        show ((s.apply c .none).setConn c conn').Holding c d ↔ _
        rw [holding_setConn]
        constructor
        · rintro ⟨k, service, hpc⟩
          have hsame := hquiet.writes (by rw [hpc]; rfl)
          exact ⟨conn, k, service, hconn, hsame.symm.trans hpc⟩
        · rintro ⟨conn₀, k, service, hconn₀, hpc⟩
          rw [hconn] at hconn₀
          cases hconn₀
          rcases localStep_sendAck hpc hlocal with hsame | ⟨o, ho⟩
          · exact ⟨k, service, hsame.trans hpc⟩
          · exact absurd ho (hrun o)
      · -- at the lock the step would have been the other one
        rintro conn₀ d key service ⟨⟩ hconn₀ hpc
        rw [hconn] at hconn₀
        cases hconn₀
        simp only [localStep, proceed, hpc] at hlocal
        split at hlocal
        · cases hlocal
        · cases hlocal
  | drop hlock hpc =>
      rename_i d k service
      refine Or.inr ⟨conn, _, d, k, service, rfl, hconn, hpc, rfl, ?_⟩
      intro d'
      rw [holding_setConn]
      constructor
      · rintro ⟨k', service', ⟨⟩⟩
        rfl
      · rintro rfl
        exact ⟨k, service, rfl⟩
  | install hpc hpc' => exact absurd hpc' (hrun _)
  | replace hlock hpc hpc' => exact absurd hpc' (hrun _)
  | hand hpc hpc' => exact absurd hpc' (hrun _)

/-- A connection that takes a step of its own is still nowhere in `s'`. -/
theorem Besides.setConn (h : Besides c s s') {conn : Conn} (c' : ConnId) :
    s'.conns.lookup c' =
      if c' = c then none else (s.setConn c conn).conns.lookup c' := by
  rw [h.conns, lookup_setConn]
  split <;> rfl

/-- What is compared along a run: the entry that the handshake has removed, if
it has removed one, is there without it. -/
structure Compared (digest : Bytes → Digest) (config : ServerConfig)
    (c : ConnId) (as : List Action) (s s' : State) : Prop where
  run : Run (step digest) (init digest config) (without c as) s'
  besides : Besides c s s'
  spares : Meets (step digest) (Spares c) (init digest config) as ↔
    ∀ d, s.Holding c d → ∀ k h, ¬ s'.controlChannels.Entry d k h

theorem lookup_other (ha : a.isOf c = false) (hs : step digest s a = some t) :
    t.conns.lookup c = s.conns.lookup c := by
  cases hold : s.conns.lookup c with
  | some conn =>
      rcases lookup_step hs hold with hsame | ⟨l, conn', e, rfl, -⟩
      · exact hsame
      · simp [Action.isOf] at ha
  | none =>
      cases hnew : t.conns.lookup c with
      | none => rfl
      | some conn =>
          rcases lookup_of_step hs hnew with
            hsame | ⟨rfl, -⟩ | ⟨l, conn₀, e, rfl, -⟩
          · exact hsame.symm.trans hold
          · simp [Action.isOf] at ha
          · simp [Action.isOf] at ha

theorem Compared.step_other {config : ServerConfig} {as : List Action}
    (h : Compared digest config c as s s') (hone : GuardAlone s)
    (hrun : Run (step digest) (init digest config) as s)
    (ha : a.isOf c = false) (hs : step digest s a = some t) :
    ∃ t', Compared digest config c (as ++ [a]) t t' := by
  obtain ⟨t', hs', hbesides, hkept⟩ := h.besides.step_other hone ha hs
  have hhold (d : Digest) : t.Holding c d ↔ s.Holding c d := by
    unfold State.Holding
    rw [lookup_other ha hs]
  have hspares : Spares c s a := by
    rintro conn d key service rfl
    simp [Action.isOf] at ha
  refine ⟨t', ?_, hbesides, ?_⟩
  · unfold without
    rw [List.filter_append, List.filter_singleton, ha]
    exact run_snoc.mpr ⟨s', h.run, hs'⟩
  · rw [meets_snoc hrun, h.spares]
    constructor
    · rintro ⟨hnone, -⟩ d hd
      rw [hkept d ((hhold d).mp hd)]
      exact hnone d ((hhold d).mp hd)
    · intro hnone
      refine ⟨fun d hd => ?_, hspares⟩
      rw [← hkept d hd]
      exact hnone d ((hhold d).mpr hd)

theorem Compared.step_own {config : ServerConfig} {as : List Action} {l : Local}
    (h : Compared digest config c as s s')
    (hrun : Run (step digest) (init digest config) as s)
    (hs : step digest s (.conn c l) = some t) (hun : t.Unfinished c) :
    Compared digest config c (as ++ [.conn c l]) t s' := by
  have hb := h.besides
  have hsame : without c (as ++ [.conn c l]) = without c as := by
    simp [without, Action.isOf]
  rcases step_unfinished hs hun with ⟨conn', rfl, hhold, hspares⟩ |
    ⟨conn, conn', d, k, service, rfl, hconn, hpc, rfl, hhold⟩
  · refine ⟨hsame ▸ h.run, ⟨hb.config, hb.services, hb.main, hb.dataChannels,
      hb.setConn, ?_, ?_⟩, ?_⟩
    · intro d hd
      exact hb.held d ((hhold d).mp hd)
    · intro hnone
      exact hb.free (fun d hd => hnone d ((hhold d).mpr hd))
    · rw [meets_snoc hrun, h.spares]
      constructor
      · rintro ⟨hnone, -⟩ d hd
        exact hnone d ((hhold d).mp hd)
      · intro hnone
        exact ⟨fun d hd => hnone d ((hhold d).mpr hd), hspares⟩
  · -- the handshake gets the guard: so far it had changed nothing
    have hfree : ∀ d', ¬ s.Holding c d' := by
      rintro d' ⟨conn₀, k', service', hconn₀, hpc₀⟩
      rw [hconn] at hconn₀
      cases hconn₀
      rw [hpc] at hpc₀
      cases hpc₀
    have hcc := hb.free hfree
    refine ⟨hsame ▸ h.run, ⟨hb.config, hb.services, hb.main, hb.dataChannels,
      hb.setConn, ?_, ?_⟩, ?_⟩
    · intro d' hd'
      rw [(hhold d').mp hd']
      exact drop_channels_congr hcc d (.handshake c)
    · intro hnone
      exact absurd ((hhold d).mpr rfl) (hnone d)
    · rw [meets_snoc hrun, h.spares]
      constructor
      · rintro ⟨-, hspares⟩ d' hd'
        rw [(hhold d').mp hd', ← hcc]
        exact hspares conn d k service rfl hconn hpc
      · intro hnone
        refine ⟨fun d' hd' => absurd hd' (hfree d'), ?_⟩
        rintro conn₀ d₀ k₀ service₀ - hconn₀ hpc₀
        rw [hconn] at hconn₀
        cases hconn₀
        rw [hpc] at hpc₀
        cases hpc₀
        rw [hcc]
        exact hnone d ((hhold d).mpr rfl)

theorem Compared.step_accept {config : ServerConfig} {as : List Action}
    (h : Compared digest config c as s s')
    (hrun : Run (step digest) (init digest config) as s)
    (hs : step digest s (.accept c) = some t) :
    Compared digest config c (as ++ [.accept c]) t s' := by
  have hb := h.besides
  cases shape_step hs with
  | pool ha => rcases ha with ha | ha <;> cases ha
  | accept hmain hnone =>
      have hfree : ∀ d, ¬ s.Holding c d := by
        rintro d ⟨conn, k, service, hconn, -⟩
        rw [hnone] at hconn
        cases hconn
      have hfree' : ∀ d, ¬ (s.setConn c ⟨.readHello, [], none⟩).Holding c d := by
        intro d hd
        obtain ⟨k, service, hpc⟩ := holding_setConn.mp hd
        cases hpc
      refine ⟨?_, ⟨hb.config, hb.services, hb.main, hb.dataChannels, hb.setConn,
        fun d hd => absurd hd (hfree' d), fun _ => hb.free hfree⟩, ?_⟩
      · have hsame : without c (as ++ [.accept c]) = without c as := by
          simp [without, Action.isOf]
        rw [hsame]
        exact h.run
      · rw [meets_snoc hrun, h.spares]
        constructor
        · exact fun _ d hd => absurd hd (hfree' d)
        · refine fun _ => ⟨fun d hd => absurd hd (hfree d), ?_⟩
          rintro conn d key service ⟨⟩

theorem guardAlone_run {config : ServerConfig} {as : List Action}
    (hrun : Run (step digest) (init digest config) as s) : GuardAlone s := by
  apply run_preserves (fun _ _ _ h hs => GuardAlone.step h hs) ?_ hrun
  intro c c' conn conn' hconn
  cases hconn

/-- **Run lemma**: a run with an unfinished handshake and the run without it. -/
theorem compared_run {config : ServerConfig} {as : List Action}
    (hrun : Run (step digest) (init digest config) as s)
    (hun : s.Unfinished c) : ∃ s', Compared digest config c as s s' := by
  induction as using List.reverseRecOn generalizing s with
  | nil =>
      cases run_nil.mp hrun
      have hnone (c' : ConnId) :
          (init digest config).conns.lookup c' = none := rfl
      refine ⟨init digest config, run_nil.mpr rfl, ⟨rfl, rfl, rfl, rfl, ?_, ?_,
        fun _ => rfl⟩, ?_⟩
      · intro c'
        rw [hnone]
        split <;> rfl
      · rintro d ⟨conn, k, service, hconn, -⟩
        cases hconn
      · refine ⟨?_, fun _ => trivial⟩
        rintro - d ⟨conn, k, service, hconn, -⟩
        cases hconn
  | append_singleton as a ih =>
      obtain ⟨u, hu, hs⟩ := run_snoc.mp hrun
      obtain ⟨u', hcmp⟩ := ih hu (fun o ho => hun o (ho.step hs))
      cases hof : a.isOf c with
      | false => exact hcmp.step_other (guardAlone_run hu) hu hof hs
      | true =>
          cases a with
          | accept c' =>
              cases of_decide_eq_true hof
              exact ⟨u', hcmp.step_accept hu hs⟩
          | conn c' l =>
              cases of_decide_eq_true hof
              exact ⟨u', hcmp.step_own hu hs hun⟩
          | take owner => cases hof
          | close owner => cases hof
          | reload change => cases hof
          | main order => cases hof
          | shutdown => cases hof

/-! ## What a failed handshake leaves behind -/

theorem State.Failed.unfinished {l : Local} (hs : step digest s (.conn c l) = some t)
    (hbefore : ¬ s.Failed c) (hfail : t.Failed c) : s.Unfinished c := by
  intro o ho
  have ho' := ho.step hs
  apply hbefore
  rcases hfail with hab | ⟨message, hbail⟩
  · exact Or.inl (ho'.unique hab ▸ ho)
  · exact Or.inr ⟨message, ho'.unique hbail ▸ ho⟩

/-- The step with which a handshake fails does not touch the channels. -/
theorem State.Failed.channels {l : Local} (hs : step digest s (.conn c l) = some t)
    (hfail : t.Failed c) : t.controlChannels = s.controlChannels := by
  obtain ⟨conn, conn', e, hconn, hlocal, rfl⟩ := step_conn hs
  have hpc : conn'.pc = .finished .aborted ∨
      ∃ message, conn'.pc = .finished (.bailed message) := by
    rcases hfail with ⟨conn₀, hconn₀, hpc⟩ | ⟨message, conn₀, hconn₀, hpc⟩
    · rw [lookup_setConn_self] at hconn₀
      cases hconn₀
      exact Or.inl hpc
    · rw [lookup_setConn_self] at hconn₀
      cases hconn₀
      exact Or.inr ⟨message, hpc⟩
  cases shape_localStep hlocal with
  | quiet => rfl
  | drop hlock hpc₀ => rcases hpc with hpc | ⟨message, hpc⟩ <;> cases hpc
  | install hpc₀ hpc' =>
      rw [hpc'] at hpc
      rcases hpc with hpc | ⟨message, hpc⟩ <;> cases hpc
  | replace hlock hpc₀ hpc' =>
      rw [hpc'] at hpc
      rcases hpc with hpc | ⟨message, hpc⟩ <;> cases hpc
  | hand => rfl

/-- The two maps contain the same items. -/
def SameEntries (m m' : MultiMap Digest Nonce Handle) : Prop :=
  ∀ d k h, m.Entry d k h ↔ m'.Entry d k h

theorem Besides.sameEntries_iff (h : Besides c s s') :
    SameEntries s.controlChannels s'.controlChannels ↔
      ∀ d, s.Holding c d → ∀ k h, ¬ s'.controlChannels.Entry d k h := by
  constructor
  · intro hsame d hd k handle he
    have hold := (hsame d k handle).mpr he
    rw [h.held d hd, MultiMap.entry_remove1] at hold
    exact hold.2 rfl
  · intro hnone d k handle
    by_cases hold : ∃ d', s.Holding c d'
    · obtain ⟨d', hd'⟩ := hold
      rw [h.held d' hd', MultiMap.entry_remove1]
      constructor
      · exact And.left
      · intro he
        refine ⟨he, ?_⟩
        rintro rfl
        exact hnone d hd' k handle he
    · rw [h.free (fun d' hd' => hold ⟨d', hd'⟩)]

end

/-- **Failed handshakes and the registry.** In every run, at the step with
which a handshake returns an error, the control channels contain what they
would contain without that connection if and only if the handshake had found
no entry of its service when it got the lock. -/
theorem failed_handshake_leaves_registry_iff (digest : Bytes → Digest)
    (config : ServerConfig) (c : ConnId) (as : List Action) (l : Local)
    (s t : State) (hrun : Run (step digest) (init digest config) as s)
    (hstep : step digest s (.conn c l) = some t) (hbefore : ¬ s.Failed c)
    (hfail : t.Failed c) :
    (∃ u, Run (step digest) (init digest config) (without c as) u ∧
      SameEntries t.controlChannels u.controlChannels) ↔
    Meets (step digest) (Spares c) (init digest config) as := by
  obtain ⟨s', hcmp⟩ :=
    compared_run hrun (State.Failed.unfinished hstep hbefore hfail)
  rw [hfail.channels hstep, hcmp.spares, ← hcmp.besides.sameEntries_iff]
  constructor
  · rintro ⟨u, hu, hsame⟩
    cases hu.symm.trans hcmp.run
    exact hsame
  · intro hsame
    exact ⟨s', hcmp.run, hsame⟩

/-- The check of `Spares`. -/
def spares (c : ConnId) (s : State) : Action → Bool
  | .conn c' .proceed =>
      match s.conns.lookup c' with
      | some ⟨.lockControl d _ _, _, _⟩ =>
          decide (c' ≠ c) || (s.controlChannels.get1 d).isNone
      | _ => true
  | _ => true

theorem spares_of_check {c : ConnId} {s : State} {a : Action}
    (h : spares c s a = true) : Spares c s a := by
  rintro ⟨pc, trace, session⟩ d key service rfl hconn rfl k handle he
  simp only [spares, hconn, ne_eq, not_true_eq_false, decide_false,
    Bool.false_or] at h
  rw [MultiMap.get1_eq_some.mpr ⟨k, he⟩] at h
  cases h

/-- Connection 1 asks for the service that connection 0 serves. -/
def askAgain : List Action :=
  [.accept 1,
    .conn 1 (.receive (.hello (.controlChannelHello 1 webDigest)) ones),
    .conn 1 .proceed, .conn 1 .proceed]

/-- The digest of the token with a nonce of ones. -/
def webKey' : Nonce := sampleDigest (challenge (some "alice-token") ones)

def answerWrongly : List Action := [.conn 1 (.receive (.auth zeros) zeros)]

/-- It answers correctly and gets the lock. -/
def answerRightly : List Action :=
  [.conn 1 (.receive (.auth webKey') zeros), .conn 1 .proceed]

/-- It answers wrongly and is told so: the entry of connection 0 stays. -/
theorem failed_handshake_leaves_registry_web : ∃ t u,
    Run (step sampleDigest) (init sampleDigest sampleConfig)
      (askForWeb ++ registerWeb ++ askAgain ++ answerWrongly ++
        [.conn 1 .proceed]) t ∧
    t.Failed 1 ∧
    Run (step sampleDigest) (init sampleDigest sampleConfig)
      (askForWeb ++ registerWeb) u ∧
    SameEntries t.controlChannels u.controlChannels ∧
    u.controlChannels.Entry webDigest webKey ⟨0, sampleService, 30⟩ := by
  obtain ⟨s, t, hrun, hstep, hbefore, hfail⟩ : ∃ s t,
      Run (step sampleDigest) (init sampleDigest sampleConfig)
        (askForWeb ++ registerWeb ++ askAgain ++ answerWrongly) s ∧
      step sampleDigest s (.conn 1 .proceed) = some t ∧
      (∃ conn, s.conns.lookup 1 = some conn ∧ conn.pc.running = true) ∧
      Finished t 1 (.bailed "Service web failed the authentication") :=
    ⟨_, _, rfl, rfl, ⟨_, rfl, rfl⟩, _, rfl, rfl⟩
  have hmeets : Meets (step sampleDigest) (Spares 1)
      (init sampleDigest sampleConfig)
      (askForWeb ++ registerWeb ++ askAgain ++ answerWrongly) :=
    Meets.mono (fun s a h => spares_of_check h)
      (show Meets (step sampleDigest) (fun s a => spares 1 s a = true)
        (init sampleDigest sampleConfig) _ by decide +kernel)
  have hnot : ¬ s.Failed 1 := by
    obtain ⟨conn, hconn, hrunning⟩ := hbefore
    rintro (⟨conn₀, hconn₀, hpc⟩ | ⟨message, conn₀, hconn₀, hpc⟩)
    · cases hconn.symm.trans hconn₀
      rw [hpc] at hrunning
      cases hrunning
    · cases hconn.symm.trans hconn₀
      rw [hpc] at hrunning
      cases hrunning
  obtain ⟨u, hu, hsame⟩ := (failed_handshake_leaves_registry_iff sampleDigest
    sampleConfig 1 _ .proceed s t hrun hstep hnot (Or.inr ⟨_, hfail⟩)).mpr hmeets
  refine ⟨t, u, ?_, Or.inr ⟨_, hfail⟩, hu, hsame, ?_⟩
  · exact run_snoc.mpr ⟨s, hrun, hstep⟩
  · cases hu
    exact ⟨0, rfl⟩

/-- It answers correctly, but the write of `Ack::Ok` fails: the service has no
control channel any more, and would have one without connection 1. -/
theorem failed_ack_unregisters : ∃ s t u,
    Run (step sampleDigest) (init sampleDigest sampleConfig)
      (askForWeb ++ registerWeb ++ askAgain ++ answerRightly) s ∧
    step sampleDigest s (.conn 1 .abort) = some t ∧ t.Failed 1 ∧
    Run (step sampleDigest) (init sampleDigest sampleConfig)
      (without 1 (askForWeb ++ registerWeb ++ askAgain ++ answerRightly)) u ∧
    u.controlChannels.Entry webDigest webKey ⟨0, sampleService, 30⟩ ∧
    ∀ k h, ¬ t.controlChannels.Entry webDigest k h := by
  obtain ⟨s, t, u, hrun, hstep, hfail, hu, he, hnone⟩ : ∃ s t u,
      Run (step sampleDigest) (init sampleDigest sampleConfig)
        (askForWeb ++ registerWeb ++ askAgain ++ answerRightly) s ∧
      step sampleDigest s (.conn 1 .abort) = some t ∧ Finished t 1 .aborted ∧
      Run (step sampleDigest) (init sampleDigest sampleConfig)
        (askForWeb ++ registerWeb) u ∧
      u.controlChannels.Entry webDigest webKey ⟨0, sampleService, 30⟩ ∧
      t.controlChannels.get1 webDigest = none :=
    ⟨_, _, _, rfl, rfl, ⟨_, rfl, rfl⟩, rfl, ⟨0, rfl⟩, rfl⟩
  refine ⟨s, t, u, hrun, hstep, Or.inl hfail, hu, he, fun k h he' => ?_⟩
  rw [MultiMap.get1_eq_some.mpr ⟨k, he'⟩] at hnone
  cases hnone

end Rathole.Server
