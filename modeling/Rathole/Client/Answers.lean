import Rathole.Client.Forwarders
import Mathlib.Data.List.Perm.Basic

/-!
# Answers on their way through the client

What the service sends on the socket of a forwarder waits in the forwarder for
room in the outbound queue, and in the queue for the task that writes it to
the server. `conserves_step` counts it. The forwarders keep the address they
were set up for (`addrs_step`), and a packet goes to one that has the packet's
(`chosen_step`).
-/

namespace Rathole.UdpForward

/-- The answer a forwarder waits to put into the outbound queue. -/
def Forwarder.answer (fw : Forwarder) : List UdpTraffic :=
  match fw.pc with
  | .reply t => [t]
  | _ => []

def State.answers (c : State) : List UdpTraffic :=
  c.forwarders.flatMap Forwarder.answer ++ c.outbound

/-- What the service sends in a step. -/
def State.replied (c : State) : Action → List UdpTraffic
  | .forwarder f (.reply data) =>
      c.forwarders[f]?.toList.map
        (fun fw => ⟨fw.fromAddr, data.take udpBufferSize⟩)
  | _ => []

/-- What is written to the server in a step. -/
def State.written (c : State) : Action → List UdpTraffic
  | .write true => c.outbound.head?.toList
  | _ => []

theorem flatMap_set_perm {l : List Forwarder} {f : ℕ} {fw : Forwarder}
    (hfw : l[f]? = some fw) (fw' : Forwarder) :
    ((l.set f fw').flatMap Forwarder.answer ++ fw.answer).Perm
      (l.flatMap Forwarder.answer ++ fw'.answer) := by
  obtain ⟨hlt, rfl⟩ := List.getElem?_eq_some_iff.mp hfw
  have hset := (List.set_perm_cons_eraseIdx hlt fw').flatMap_right
    Forwarder.answer
  have hold := (List.getElem_cons_eraseIdx_perm hlt).flatMap_right
    Forwarder.answer
  rw [List.flatMap_cons] at hset hold
  rw [List.perm_iff_count] at hset hold ⊢
  intro t
  have h₁ := hset t
  have h₂ := hold t
  rw [List.count_append] at h₁ h₂ ⊢
  rw [List.count_append]
  omega

/-- A forwarder changes, and the outbound queue with it. -/
theorem answers_set {c : State} {f : ℕ} {fw : Forwarder}
    (hfw : c.forwarders[f]? = some fw) (fw' : Forwarder) {c' : State}
    (hfws : c'.forwarders = c.forwarders.set f fw') {l l' : List UdpTraffic}
    (hout : ∀ t, (fw'.answer ++ c'.outbound ++ l').count t =
      (fw.answer ++ c.outbound ++ l).count t) :
    (c.answers ++ l).Perm (c'.answers ++ l') := by
  have hset := flatMap_set_perm hfw fw'
  rw [← hfws] at hset
  rw [List.perm_iff_count] at hset ⊢
  intro t
  have h₁ := hset t
  have h₂ := hout t
  simp only [State.answers, List.count_append] at h₁ h₂ ⊢
  omega

/-- Answers are kept, unless the outbound task has ended. -/
def Conserves (c : State) (a : Action) (c' : State) : Prop :=
  ∃ lost, (c.answers ++ c.replied a).Perm (c'.answers ++ (c.written a ++ lost)) ∧
    (c'.outboundClosed = false → lost = [])

theorem conserves_set {c c' : State} {f : ℕ} {fw fw' : Forwarder} {e : Event}
    (hfw : c.forwarders[f]? = some fw)
    (hfws : c'.forwarders = c.forwarders.set f fw')
    (hout : ∀ t, (fw'.answer ++ c'.outbound).count t =
      (fw.answer ++ c.outbound ++ c.replied (.forwarder f e)).count t) :
    Conserves c (.forwarder f e) c' := by
  refine ⟨[], answers_set hfw fw' hfws ?_, fun _ => rfl⟩
  intro t
  rw [← hout t]
  simp [State.written]

theorem conserves_forwarderStep {c c' : State} {f : ℕ} {fw : Forwarder}
    {e : Event} (hfw : c.forwarders[f]? = some fw)
    (h : forwarderStep c f fw e = some c') :
    Conserves c (.forwarder f e) c' := by
  cases e with
  | recv =>
      simp only [forwarderStep] at h
      split at h
      · rename_i data rest hpc hqueue
        cases h
        exact conserves_set hfw rfl (by
          simp [Forwarder.answer, State.replied, State.setForwarder, hpc])
      · cases h
  | closed =>
      simp only [forwarderStep] at h
      split at h
      · rename_i hcond
        cases h
        exact conserves_set hfw rfl (by
          simp [Forwarder.answer, State.replied, State.leave, hcond.1])
      · cases h
  | sent ok =>
      simp only [forwarderStep] at h
      split at h
      · rename_i data hpc
        cases h
        exact conserves_set hfw rfl (by
          cases ok <;>
            simp [Forwarder.answer, State.replied, State.setForwarder, hpc])
      · cases h
  | reply data =>
      simp only [forwarderStep] at h
      split at h
      · rename_i hpc
        cases h
        exact conserves_set hfw rfl (by
          simp [Forwarder.answer, State.replied, State.setForwarder, hpc, hfw,
            List.count_cons])
      · cases h
  | recvError =>
      simp only [forwarderStep] at h
      split at h
      · rename_i hpc
        cases h
        exact conserves_set hfw rfl (by
          simp [Forwarder.answer, State.replied, State.leave, hpc])
      · cases h
  | timeout =>
      simp only [forwarderStep] at h
      split at h
      · rename_i hpc
        cases h
        exact conserves_set hfw rfl (by
          simp [Forwarder.answer, State.replied, State.leave, hpc])
      · cases h
  | push =>
      simp only [forwarderStep] at h
      split at h
      · rename_i t hpc
        split at h
        · -- nobody takes the answer any more
          rename_i hclosed
          cases h
          refine ⟨[t], answers_set hfw _ rfl ?_, ?_⟩
          · intro u
            simp [Forwarder.answer, State.replied, State.written,
              State.setForwarder, hpc, List.count_cons]
          · intro hopen
            cases hclosed.symm.trans hopen
        · split at h
          · cases h
            exact conserves_set hfw rfl (by
              simp [Forwarder.answer, State.replied, hpc, List.count_cons])
          · cases h
      · cases h
  | remove =>
      simp only [forwarderStep] at h
      split at h
      · rename_i hcond
        cases h
        exact conserves_set hfw rfl (by
          simp [Forwarder.answer, State.replied, State.setForwarder, hcond.1])
      · cases h

/-- The main loop holds no answer. -/
theorem conserves_same {c c' : State} {a : Action} (hreply : c.replied a = [])
    (hwrite : c.written a = [])
    (hfws : c'.forwarders.flatMap Forwarder.answer =
      c.forwarders.flatMap Forwarder.answer)
    (hout : c'.outbound = c.outbound) : Conserves c a c' := by
  refine ⟨[], ?_, fun _ => rfl⟩
  unfold State.answers
  rw [hreply, hwrite, hfws, hout]
  rfl

/-- **Step lemma**: no answer is lost while the outbound task runs. -/
theorem conserves_step {c c' : State} {a : Action} (h : step c a = some c') :
    Conserves c a c' := by
  cases a with
  | forwarder f e =>
      simp only [step] at h
      split at h
      · rename_i fw hfw
        exact conserves_forwarderStep hfw h
      · cases h
  | write ok =>
      simp only [step] at h
      split at h
      · cases h
      · rename_i t rest hout
        split at h
        · cases h
        · split at h
          · rename_i hok
            cases h
            refine ⟨[], ?_, fun _ => rfl⟩
            subst hok
            unfold State.answers
            rw [hout, List.perm_iff_count]
            intro u
            simp [State.replied, State.written, hout, List.count_cons]
          · rename_i hok
            cases h
            refine ⟨c.outbound, ?_, by simp⟩
            rw [Bool.not_eq_true] at hok
            subst hok
            simp [State.answers, State.replied, State.written]
  | connected ok =>
      cases shape_step h with
      | returned ha => rcases ha with ha | ⟨ha, -⟩ <;> cases ha
      | connected hmain =>
          cases ok with
          | false => exact conserves_same rfl rfl rfl rfl
          | true =>
              refine conserves_same rfl rfl ?_ rfl
              show (c.forwarders ++ [_]).flatMap _ = _
              rw [List.flatMap_append]
              simp [Forwarder.answer]
  | main =>
      cases shape_step h with
      | returned ha => rcases ha with ha | ⟨ha, -⟩ <;> cases ha
      | found => exact conserves_same rfl rfl rfl rfl
      | missing => exact conserves_same rfl rfl rfl rfl
      | locked => exact conserves_same rfl rfl rfl rfl
      | chosen => exact conserves_same rfl rfl rfl rfl
      | skipped => exact conserves_same rfl rfl rfl rfl
      | pushed hmain hfw hlive =>
          refine ⟨[], answers_set hfw _ rfl ?_, fun _ => rfl⟩
          intro u
          rfl
  | packet p =>
      cases shape_step h with
      | returned ha => rcases ha with ha | ⟨ha, -⟩ <;> cases ha
      | packet => exact conserves_same rfl rfl rfl rfl
  | readError =>
      cases shape_step h with
      | returned => exact conserves_same rfl rfl rfl rfl
  | cancel =>
      cases shape_step h with
      | returned => exact conserves_same rfl rfl rfl rfl

/-- Only a write ends the outbound task. -/
theorem outboundClosed_step {c c' : State} {a : Action} (h : step c a = some c')
    (ha : ∀ ok, a ≠ .write ok) : c'.outboundClosed = c.outboundClosed := by
  cases shape_step h with
  | connected hmain =>
      rename_i p ok
      cases ok <;> rfl
  | written => exact absurd rfl (ha _)
  | _ => rfl

theorem write_step {c c' : State} {ok : Bool}
    (h : step c (.write ok) = some c') :
    c.outboundClosed = false ∧ c'.outboundClosed = !ok := by
  simp only [step] at h
  split at h
  · cases h
  · split at h
    · cases h
    · rename_i hopen
      rw [Bool.not_eq_true] at hopen
      cases ok with
      | false =>
          cases h
          exact ⟨hopen, rfl⟩
      | true =>
          cases h
          exact ⟨hopen, hopen⟩

theorem outboundClosed_mono {c c' : State} {a : Action}
    (h : step c a = some c') (hopen : c'.outboundClosed = false) :
    c.outboundClosed = false := by
  by_cases ha : ∃ ok, a = .write ok
  · obtain ⟨ok, rfl⟩ := ha
    exact (write_step h).1
  · rw [← outboundClosed_step h (fun ok heq => ha ⟨ok, heq⟩)]
    exact hopen

/-! ## Sockets and packets -/

/-- The addresses of the forwarders, in the order they were spawned. -/
def State.addrs (c : State) : List SocketAddr :=
  c.forwarders.map Forwarder.fromAddr

def MainPc.packet? : MainPc → Option UdpTraffic
  | .lockRead p | .lockWrite p | .connect p | .lockSend p _ | .send p _ => some p
  | .read | .returned => none

/-- The address of the socket that is opened in a step. -/
def State.opens (c : State) : Action → List SocketAddr
  | .connected true => c.main.packet?.toList.map UdpTraffic.fromAddr
  | _ => []

theorem map_set_forwarder {l : List Forwarder} {f : ℕ} {fw fw' : Forwarder}
    (hfw : l[f]? = some fw) (haddr : fw'.fromAddr = fw.fromAddr) :
    (l.set f fw').map Forwarder.fromAddr = l.map Forwarder.fromAddr := by
  obtain ⟨hlt, rfl⟩ := List.getElem?_eq_some_iff.mp hfw
  rw [List.map_set, haddr, ← List.map_set, List.set_getElem_self]

/-- Forwarders keep their address. -/
theorem addrs_step {c c' : State} {a : Action} (h : step c a = some c') :
    c'.addrs = c.addrs ++ c.opens a := by
  unfold State.addrs
  cases shape_step h with
  | connected hmain =>
      rename_i p ok
      cases ok with
      | false => simp [connected, State.opens]
      | true => simp [connected, State.opens, hmain, MainPc.packet?]
  | pushed hmain hfw hlive =>
      simp only [State.opens, List.append_nil]
      exact map_set_forwarder hfw rfl
  | inner hfw hlock hlive haddr hqueue hlock' he hend =>
      simp only [State.opens, List.append_nil]
      exact map_set_forwarder hfw haddr
  | leave hfw hpc he hclosed =>
      simp only [State.opens, List.append_nil]
      exact map_set_forwarder hfw rfl
  | remove hfw hpc hgot =>
      simp only [State.opens, List.append_nil]
      exact map_set_forwarder hfw rfl
  | returned ha =>
      rcases ha with rfl | ⟨rfl, -⟩ <;> simp [State.opens]
  | _ => simp [State.opens, State.endRound]

/-- The main loop handles the packet it has read last. -/
theorem packet?_step {c c' : State} {a : Action} (h : step c a = some c')
    {p : UdpTraffic} (hp : c'.main.packet? = some p) :
    c.main.packet? = some p ∨ a = .packet p := by
  cases shape_step h with
  | packet hmain => exact Or.inr (by cases hp; rfl)
  | returned => cases hp
  | found hmain hgot hentry => exact Or.inl (by rw [hmain]; exact hp)
  | missing hmain hgot hentry => exact Or.inl (by rw [hmain]; exact hp)
  | locked hmain hgot => exact Or.inl (by rw [hmain]; exact hp)
  | connected hmain =>
      rename_i q ok
      left
      rw [hmain]
      cases ok <;> exact hp
  | chosen hmain hgot hentry => exact Or.inl (by rw [hmain]; exact hp)
  | skipped => cases hp
  | pushed => cases hp
  | inner => exact Or.inl hp
  | leave => exact Or.inl hp
  | remove => exact Or.inl hp
  | written => exact Or.inl hp

/-- The forwarder a packet is sent to has the packet's address. -/
def State.Chosen (c : State) : Prop :=
  ∀ p f, c.main = .send p f → c.addrs[f]? = some p.fromAddr

theorem chosen_step {c c' : State} {a : Action} (hmapped : Mapped c)
    (hchosen : c.Chosen) (h : step c a = some c') : c'.Chosen := by
  have haddrs := addrs_step h
  -- a main loop that stays where it is
  have hkeep (hmain : c'.main = c.main) : c'.Chosen := by
    intro p f hp
    rw [hmain] at hp
    have hold := hchosen p f hp
    rw [haddrs, List.getElem?_append_left, hold]
    exact (List.getElem?_eq_some_iff.mp hold).1
  cases shape_step h with
  | chosen hmain hgot hentry =>
      rename_i p kept f
      intro q g hq
      cases hq
      obtain ⟨fw, hfw, haddr⟩ := hmapped.entry _ _ hentry
      show (c.forwarders.map Forwarder.fromAddr)[f]? = _
      rw [List.getElem?_map, hfw, ← haddr]
      rfl
  | inner => exact hkeep rfl
  | leave => exact hkeep rfl
  | remove => exact hkeep rfl
  | written => exact hkeep rfl
  | connected hmain =>
      rename_i q ok
      intro p f hp
      cases ok <;> cases hp
  | _ => exact nofun

end Rathole.UdpForward
