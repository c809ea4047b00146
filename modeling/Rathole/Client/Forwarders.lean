import Rathole.Client.UdpForward

/-!
# Forwarders and their entries

A forwarder that breaks out of its loop removes its entry from `port_map`
before it returns. One whose socket fails to send, or that finds the outbound
queue closed, returns at once and leaves the entry behind: from then on the
main loop finds a sender for the visitor and sends to nobody.
`no_dead_forwarder` shows that this is the only way to a dead entry, that no
forwarder touches an entry but its own, and that without dead entries every
packet of a visitor whose forwarders have all finished sets up a new one.
-/

namespace Rathole.UdpForward

open Runs

/-- Entries name forwarders of their address, a forwarder that has not
finished has its entry, and there is none while one is being set up. -/
structure Mapped (s : State) : Prop where
  entry : ∀ a f, s.portMap.lookup a = some f →
    ∃ fw, s.forwarders[f]? = some fw ∧ fw.fromAddr = a
  live : ∀ f fw, s.forwarders[f]? = some fw → fw.pc ≠ .finished →
    s.portMap.lookup fw.fromAddr = some f
  absent : ∀ p, s.main = .lockWrite p ∨ s.main = .connect p →
    s.portMap.lookup p.fromAddr = none

/-- No entry names a forwarder that has finished. -/
def State.NoDead (s : State) : Prop :=
  ∀ f fw, s.forwarders[f]? = some fw → fw.pc = .finished →
    s.portMap.lookup fw.fromAddr ≠ some f

/-- The forwarders of the visitor, if there were any, have finished. -/
def State.AllFinished (s : State) (addr : SocketAddr) : Prop :=
  ∀ (f : Nat) (fw : Forwarder), s.forwarders[f]? = some fw →
    fw.fromAddr = addr → fw.pc = .finished

/-- The main loop is about to set up a forwarder for the packet. -/
def State.SettingUp (s : State) (p : UdpTraffic) : Prop :=
  (s.main = .lockRead p ∨ s.main = .lockWrite p ∨ s.main = .connect p) ∧
    s.portMap.lookup p.fromAddr = none

section

variable {s t : State} {a : Action}

/-! ## Changes of one forwarder -/

theorem getElem?_set_forwarder {f g : Nat} {fw fw' gw : Forwarder}
    {l : List Forwarder} (hfw : l[f]? = some fw) :
    (l.set f fw')[g]? = some gw ↔
      (g = f ∧ gw = fw') ∨ (g ≠ f ∧ l[g]? = some gw) := by
  have hlt : f < l.length := (List.getElem?_eq_some_iff.mp hfw).1
  by_cases h : g = f
  · subst h
    rw [List.getElem?_set_self hlt]
    simp [eq_comm]
  · rw [List.getElem?_set_ne (Ne.symm h)]
    simp [h]

theorem Mapped.of_main (h : Mapped s) (hmap : t.portMap = s.portMap)
    (hfws : t.forwarders = s.forwarders)
    (habsent : ∀ p, t.main = .lockWrite p ∨ t.main = .connect p →
      s.portMap.lookup p.fromAddr = none) : Mapped t := by
  refine ⟨?_, ?_, ?_⟩
  · rw [hmap, hfws]
    exact h.entry
  · rw [hmap, hfws]
    exact h.live
  · rw [hmap]
    exact habsent

theorem Mapped.set (h : Mapped s) {f : Nat} {fw fw' : Forwarder}
    (hfw : s.forwarders[f]? = some fw) (hlive : fw.pc ≠ .finished)
    (hfws : t.forwarders = s.forwarders.set f fw')
    (haddr : fw'.fromAddr = fw.fromAddr) (hmap : t.portMap = s.portMap)
    (habsent : ∀ p, t.main = .lockWrite p ∨ t.main = .connect p →
      s.portMap.lookup p.fromAddr = none) : Mapped t := by
  refine ⟨?_, ?_, ?_⟩
  · intro addr g hg
    rw [hmap] at hg
    obtain ⟨gw, hgw, rfl⟩ := h.entry addr g hg
    by_cases hgf : g = f
    · subst hgf
      obtain rfl := Option.some.inj (hfw.symm.trans hgw)
      exact ⟨fw', by rw [hfws, getElem?_set_forwarder hfw]; simp, haddr⟩
    · exact ⟨gw, by rw [hfws, getElem?_set_forwarder hfw]; simp [hgf, hgw],
        rfl⟩
  · intro g gw hgw hpc
    rw [hfws, getElem?_set_forwarder hfw] at hgw
    rw [hmap]
    rcases hgw with ⟨rfl, rfl⟩ | ⟨-, hgw⟩
    · rw [haddr]
      exact h.live g fw hfw hlive
    · exact h.live g gw hgw hpc
  · rw [hmap]
    exact habsent

/-! ## Set up and removed -/

theorem Mapped.connected (h : Mapped s) {p : UdpTraffic}
    (hmain : s.main = .connect p) (ok : Bool) : Mapped (connected s p ok) := by
  cases ok with
  | false => exact h.of_main rfl rfl (by rintro q (hq | hq) <;> cases hq)
  | true =>
      have hnone := h.absent p (Or.inr hmain)
      refine ⟨?_, ?_, by rintro q (hq | hq) <;> cases hq⟩
      · intro addr f hf
        change (AList.insert p.fromAddr s.forwarders.length s.portMap).lookup
          addr = some f at hf
        show ∃ fw, (s.forwarders ++ [_])[f]? = some fw ∧ _
        by_cases haddr : addr = p.fromAddr
        · subst haddr
          rw [AList.lookup_insert] at hf
          cases hf
          exact ⟨⟨p.fromAddr, [], .select⟩, by simp, rfl⟩
        · rw [AList.lookup_insert_ne haddr] at hf
          obtain ⟨fw, hfw, hfw'⟩ := h.entry addr f hf
          have hlt := (List.getElem?_eq_some_iff.mp hfw).1
          exact ⟨fw, by rw [List.getElem?_append_left hlt, hfw], hfw'⟩
      · intro f fw hfw hpc
        change (s.forwarders ++ [_])[f]? = some fw at hfw
        show (AList.insert p.fromAddr s.forwarders.length s.portMap).lookup
          fw.fromAddr = some f
        rw [List.getElem?_append] at hfw
        split at hfw
        · have hlive := h.live f fw hfw hpc
          have hne : fw.fromAddr ≠ p.fromAddr := by
            intro heq
            rw [heq, hnone] at hlive
            cases hlive
          rw [AList.lookup_insert_ne hne, hlive]
        · rename_i hge
          rw [List.getElem?_singleton] at hfw
          split at hfw
          · rename_i hzero
            cases hfw
            have hf : f = s.forwarders.length := by omega
            rw [hf, AList.lookup_insert]
          · cases hfw

theorem Mapped.remove (h : Mapped s) {f : Nat} {fw : Forwarder}
    (hfw : s.forwarders[f]? = some fw) (hpc : fw.pc = .lock)
    (hmap : t.portMap = AList.erase fw.fromAddr s.portMap)
    (hfws : t.forwarders = s.forwarders.set f { fw with pc := .finished })
    (hmain : t.main = s.main) : Mapped t := by
  have hown := h.live f fw hfw (by simp [hpc])
  refine ⟨?_, ?_, ?_⟩
  · intro addr g hg
    rw [hmap] at hg
    by_cases haddr : addr = fw.fromAddr
    · subst haddr
      rw [AList.lookup_erase] at hg
      cases hg
    · rw [AList.lookup_erase_ne haddr] at hg
      obtain ⟨gw, hgw, rfl⟩ := h.entry addr g hg
      have hgf : g ≠ f := by
        rintro rfl
        obtain rfl := Option.some.inj (hfw.symm.trans hgw)
        exact haddr rfl
      exact ⟨gw, by rw [hfws, getElem?_set_forwarder hfw]; simp [hgf, hgw],
        rfl⟩
  · intro g gw hgw hpc'
    rw [hfws, getElem?_set_forwarder hfw] at hgw
    rcases hgw with ⟨-, rfl⟩ | ⟨hgf, hgw⟩
    · exact absurd rfl hpc'
    · have hlive := h.live g gw hgw hpc'
      have hne : gw.fromAddr ≠ fw.fromAddr := by
        intro heq
        rw [heq, hown] at hlive
        exact hgf (Option.some.inj hlive).symm
      rw [hmap, AList.lookup_erase_ne hne, hlive]
  · intro p hp
    rw [hmain] at hp
    rw [hmap]
    by_cases haddr : p.fromAddr = fw.fromAddr
    · rw [haddr, AList.lookup_erase]
    · rw [AList.lookup_erase_ne haddr]
      exact h.absent p hp

/-! ## Steps and runs -/

theorem mapped_init : Mapped init where
  entry addr f hf := by cases hf
  live f fw hfw := by cases hfw
  absent p hp := rfl

theorem mapped_step (h : Mapped s) (hs : step s a = some t) : Mapped t := by
  cases shape_step hs with
  | packet => exact h.of_main rfl rfl (by rintro q (hq | hq) <;> cases hq)
  | returned => exact h.of_main rfl rfl (by rintro q (hq | hq) <;> cases hq)
  | found => exact h.of_main rfl rfl (by rintro q (hq | hq) <;> cases hq)
  | missing hmain hgot hentry =>
      refine h.of_main rfl rfl ?_
      rintro q (hq | hq) <;> cases hq
      exact hentry
  | locked hmain hgot =>
      refine h.of_main rfl rfl ?_
      rintro q (hq | hq) <;> cases hq
      exact h.absent _ (Or.inl hmain)
  | connected hmain => exact h.connected hmain _
  | chosen => exact h.of_main rfl rfl (by rintro q (hq | hq) <;> cases hq)
  | skipped => exact h.of_main rfl rfl (by rintro q (hq | hq) <;> cases hq)
  | pushed hmain hfw hlive =>
      exact h.set hfw hlive rfl rfl rfl (by rintro q (hq | hq) <;> cases hq)
  | inner hfw hlock hlive haddr hqueue hlock' he hend =>
      exact h.set hfw hlive rfl haddr rfl h.absent
  | leave hfw hpc he hclosed =>
      exact h.set hfw (by simp [hpc]) rfl rfl rfl h.absent
  | remove hfw hpc hgot => exact h.remove hfw hpc rfl rfl rfl
  | written => exact h.of_main rfl rfl h.absent

/-- Forwarders that were finished before still have no entry. -/
theorem State.NoDead.of_finished (h : s.NoDead)
    (hmap : ∀ addr f, t.portMap.lookup addr = some f →
      f < s.forwarders.length → s.portMap.lookup addr = some f)
    (hfws : ∀ (f : Nat) (fw : Forwarder), t.forwarders[f]? = some fw →
      fw.pc = .finished → s.forwarders[f]? = some fw) : t.NoDead := by
  intro f fw hfw hpc hdead
  have hold := hfws f fw hfw hpc
  have hlt := (List.getElem?_eq_some_iff.mp hold).1
  exact h f fw hold hpc (hmap _ _ hdead hlt)

theorem State.NoDead.of_main (h : s.NoDead) (hmap : t.portMap = s.portMap)
    (hfws : t.forwarders = s.forwarders) : t.NoDead := by
  unfold State.NoDead
  rw [hmap, hfws]
  exact h

theorem State.NoDead.connected (h : s.NoDead) (p : UdpTraffic) (ok : Bool) :
    (connected s p ok).NoDead := by
  cases ok with
  | false => exact h.of_main rfl rfl
  | true =>
      refine h.of_finished ?_ ?_
      · intro addr f hf hlt
        change (AList.insert p.fromAddr s.forwarders.length s.portMap).lookup
          addr = some f at hf
        by_cases haddr : addr = p.fromAddr
        · subst haddr
          rw [AList.lookup_insert] at hf
          exact absurd (Option.some.inj hf) (Nat.ne_of_gt hlt)
        · rwa [AList.lookup_insert_ne haddr] at hf
      · intro f fw hfw hpc
        change (s.forwarders ++ [_])[f]? = some fw at hfw
        rw [List.getElem?_append] at hfw
        split at hfw
        · exact hfw
        · -- the new one has not finished
          obtain ⟨hlt, heq⟩ := List.getElem?_eq_some_iff.mp hfw
          rw [List.getElem_singleton] at heq
          rw [← heq] at hpc
          cases hpc

/-- **Step lemma.** A step makes an entry dead exactly if its forwarder
returns early. -/
theorem noDead_step (h : Mapped s) (hd : s.NoDead) (hs : step s a = some t) :
    t.NoDead ↔ ¬ Abandons s a := by
  cases shape_step hs with
  | packet => exact iff_of_true (hd.of_main rfl rfl) nofun
  | returned ha =>
      refine iff_of_true (hd.of_main rfl rfl) ?_
      rcases ha with rfl | ⟨rfl, -⟩ <;> exact nofun
  | found => exact iff_of_true (hd.of_main rfl rfl) nofun
  | missing => exact iff_of_true (hd.of_main rfl rfl) nofun
  | locked => exact iff_of_true (hd.of_main rfl rfl) nofun
  | connected hmain => exact iff_of_true (hd.connected _ _) nofun
  | chosen => exact iff_of_true (hd.of_main rfl rfl) nofun
  | skipped => exact iff_of_true (hd.of_main rfl rfl) nofun
  | pushed hmain hfw hlive =>
      refine iff_of_true (hd.of_finished (fun _ _ hf _ => hf) ?_) nofun
      intro g gw hgw hpc
      rcases (getElem?_set_forwarder hfw).mp hgw with ⟨-, rfl⟩ | ⟨-, hgw⟩
      · exact absurd hpc hlive
      · exact hgw
  | inner hfw hlock hlive haddr hqueue hlock' he hend =>
      rename_i f e fw fw' out
      constructor
      · intro hd' habandons
        have hentry := h.live f fw hfw hlive
        refine hd' f fw' ?_ (hend.mpr habandons) ?_
        · exact (getElem?_set_forwarder hfw).mpr (Or.inl ⟨rfl, rfl⟩)
        · rw [haddr]
          exact hentry
      · intro hclean
        refine hd.of_finished (fun _ _ hf _ => hf) ?_
        intro g gw hgw hpc
        rcases (getElem?_set_forwarder hfw).mp hgw with ⟨-, rfl⟩ | ⟨-, hgw⟩
        · exact absurd (hend.mp hpc) hclean
        · exact hgw
  | leave hfw hpc he hclosed =>
      refine iff_of_true (hd.of_finished (fun _ _ hf _ => hf) ?_) ?_
      · intro g gw hgw hpc'
        rcases (getElem?_set_forwarder hfw).mp hgw with ⟨-, rfl⟩ | ⟨-, hgw⟩
        · cases hpc'
        · exact hgw
      · rintro (_ | _) <;> cases he
  | remove hfw hpc hgot =>
      rename_i f fw
      refine iff_of_true ?_ nofun
      intro g gw hgw hpc' hdead
      change (AList.erase fw.fromAddr s.portMap).lookup gw.fromAddr =
        some g at hdead
      by_cases haddr : gw.fromAddr = fw.fromAddr
      · rw [haddr, AList.lookup_erase] at hdead
        cases hdead
      · rw [AList.lookup_erase_ne haddr] at hdead
        rcases (getElem?_set_forwarder hfw).mp hgw with ⟨-, rfl⟩ | ⟨-, hgw⟩
        · exact haddr rfl
        · exact hd g gw hgw hpc' hdead
  | written => exact iff_of_true (hd.of_main rfl rfl) nofun

/-- A forwarder changes no entry but its own. -/
theorem entry_of_forwarder (h : Mapped s) {f : Nat} {e : Event}
    (hs : step s (.forwarder f e) = some t) {addr : SocketAddr} {g : Nat}
    (hentry : s.portMap.lookup addr = some g) (hne : g ≠ f) :
    t.portMap.lookup addr = some g := by
  cases shape_step hs with
  | returned ha => rcases ha with ha | ⟨ha, -⟩ <;> cases ha
  | inner => exact hentry
  | leave => exact hentry
  | remove hfw hpc hgot =>
      rename_i fw
      show (AList.erase fw.fromAddr s.portMap).lookup addr = some g
      have hown := h.live f fw hfw (by simp [hpc])
      have haddr : addr ≠ fw.fromAddr := by
        rintro rfl
        exact hne (Option.some.inj (hentry.symm.trans hown))
      rw [AList.lookup_erase_ne haddr, hentry]

/-! ## Setting up a forwarder -/

/-- A packet of a visitor whose forwarders have all finished. -/
theorem settingUp_packet (h : Mapped s) (hd : s.NoDead) {p : UdpTraffic}
    (hfinished : s.AllFinished p.fromAddr)
    (hs : step s (.packet p) = some t) : t.SettingUp p := by
  have hnone : s.portMap.lookup p.fromAddr = none := by
    by_contra hsome
    obtain ⟨f, hf⟩ := Option.ne_none_iff_exists'.mp hsome
    obtain ⟨fw, hfw, haddr⟩ := h.entry _ f hf
    refine hd f fw hfw (hfinished f fw hfw haddr) ?_
    rw [haddr, hf]
  cases shape_step hs with
  | packet => exact ⟨Or.inl rfl, hnone⟩
  | returned ha => rcases ha with ha | ⟨ha, -⟩ <;> cases ha

/-- On its way to a new forwarder the main loop neither reads a packet nor
sends one. -/
theorem State.SettingUp.main_ne {p : UdpTraffic} (h : s.SettingUp p) :
    s.main ≠ .read ∧ (∀ q kept, s.main ≠ .lockSend q kept) ∧
      ∀ q f, s.main ≠ .send q f := by
  rcases h.1 with hmain | hmain | hmain <;> (rw [hmain]; exact ⟨nofun, nofun, nofun⟩)

/-- Nothing but the end of `udp_connect`, or of the main loop, takes the main
loop off its way. -/
theorem settingUp_step {p : UdpTraffic} (h : s.SettingUp p)
    (hs : step s a = some t) :
    t.SettingUp p ∨ (∃ ok, a = .connected ok) ∨ a = .cancel := by
  obtain ⟨hway, hnone⟩ := h
  obtain ⟨hread, hlockSend, hsend⟩ := State.SettingUp.main_ne ⟨hway, hnone⟩
  cases shape_step hs with
  | packet hmain => exact absurd hmain hread
  | returned ha =>
      rcases ha with rfl | ⟨-, hmain⟩
      · exact Or.inr (Or.inr rfl)
      · exact absurd hmain hread
  | found hmain hgot hentry =>
      -- the packet it looks for is the one that has no entry
      rw [hmain] at hway
      rcases hway with hway | hway | hway <;> cases hway
      rw [hnone] at hentry
      cases hentry
  | missing hmain hgot hentry =>
      rw [hmain] at hway
      rcases hway with hway | hway | hway <;> cases hway
      exact Or.inl ⟨Or.inr (Or.inl rfl), hnone⟩
  | locked hmain hgot =>
      rw [hmain] at hway
      rcases hway with hway | hway | hway <;> cases hway
      exact Or.inl ⟨Or.inr (Or.inr rfl), hnone⟩
  | connected hmain => exact Or.inr (Or.inl ⟨_, rfl⟩)
  | chosen hmain hgot hentry => exact absurd hmain (hlockSend _ _)
  | skipped hmain =>
      rcases hmain with ⟨kept, hmain, -⟩ | ⟨f, hmain⟩
      · exact absurd hmain (hlockSend _ _)
      · exact absurd hmain (hsend _ _)
  | pushed hmain hfw hlive => exact absurd hmain (hsend _ _)
  | inner => exact Or.inl ⟨hway, hnone⟩
  | leave => exact Or.inl ⟨hway, hnone⟩
  | remove hfw hpc hgot =>
      rename_i f fw
      refine Or.inl ⟨hway, ?_⟩
      show (AList.erase fw.fromAddr s.portMap).lookup p.fromAddr = none
      by_cases haddr : p.fromAddr = fw.fromAddr
      · rw [haddr, AList.lookup_erase]
      · rw [AList.lookup_erase_ne haddr, hnone]
  | written => exact Or.inl ⟨hway, hnone⟩

/-- A new forwarder, with an empty queue, under the packet's address. -/
def SetsUp (p : UdpTraffic) (s t : State) : Prop :=
  t.portMap.lookup p.fromAddr = some s.forwarders.length ∧
    t.forwarders = s.forwarders ++ [⟨p.fromAddr, [], .select⟩]

theorem setsUp_connected {p : UdpTraffic} (h : s.SettingUp p)
    (hs : step s (.connected true) = some t) : SetsUp p s t := by
  cases shape_step hs with
  | returned ha => rcases ha with ha | ⟨ha, -⟩ <;> cases ha
  | connected hmain =>
      rename_i q
      obtain rfl : q = p := by
        have hway := h.1
        rw [hmain] at hway
        rcases hway with hway | hway | hway <;> cases hway
        rfl
      exact ⟨AList.lookup_insert _, rfl⟩

/-- A run that begins with such a packet: it has not come to its end yet, the
connect has failed or the channel was cancelled, or there is a forwarder. -/
def Served (p : UdpTraffic) (s : State) (as : List Action) (t : State) : Prop :=
  t.SettingUp p ∨ ∃ before a after u v, as = before ++ a :: after ∧
    Run step s before u ∧ u.SettingUp p ∧ step u a = some v ∧
    Run step v after t ∧
    (a = .cancel ∨ a = .connected false ∨
      (a = .connected true ∧ SetsUp p u v))

theorem served_of_settingUp {p : UdpTraffic} (h : s.SettingUp p)
    {as : List Action} (hrun : Run step s as t) : Served p s as t := by
  by_cases ht : t.SettingUp p
  · exact Or.inl ht
  · right
    -- the step after which the main loop is no longer on its way
    obtain ⟨before, a, after, u, v, rfl, hu, hstep, hrest, hway, hoff⟩ :=
      hrun.flips (P := fun s => ¬ s.SettingUp p) (not_not.mpr h) ht
    rw [not_not] at hway
    refine ⟨before, a, after, u, v, rfl, hu, hway, hstep, hrest, ?_⟩
    rcases settingUp_step hway hstep with hv | ⟨ok, rfl⟩ | rfl
    · exact absurd hv hoff
    · cases ok with
      | false => exact Or.inr (Or.inl rfl)
      | true => exact Or.inr (Or.inr ⟨rfl, setsUp_connected hway hstep⟩)
    · exact Or.inl rfl

end

theorem noDead_init : init.NoDead := by
  intro f fw hfw
  cases hfw

/-- The step leaves no dead entry. -/
def KeepsNoDead (s : State) (a : Action) : Prop :=
  ∀ t, step s a = some t → t.NoDead

theorem keepsNoDead_iff {s : State} (h : Mapped s) (hd : s.NoDead) (a : Action) :
    KeepsNoDead s a ↔ ¬ Abandons s a := by
  constructor
  · intro hkeep habandons
    have hstep : ∃ t, step s a = some t := by
      cases habandons with
      | send hfw hpc => exact ⟨_, by simp [step, hfw, forwarderStep, hpc]; rfl⟩
      | reply hfw hpc hclosed =>
          exact ⟨_, by simp [step, hfw, forwarderStep, hpc, hclosed]; rfl⟩
    obtain ⟨t, ht⟩ := hstep
    exact (noDead_step h hd ht).mp (hkeep t ht) habandons
  · intro hclean t ht
    exact (noDead_step h hd ht).mpr hclean

/-- **No dead forwarders.** In a run no entry ever names a forwarder that has
finished exactly if no forwarder returns early. In any run a forwarder leaves
the entries of others alone; and in a run without early returns a packet that
arrives when the forwarders of its visitor have all finished leads to a new
one, if the connect succeeds. -/
theorem no_dead_forwarder (as : List Action) :
    (Meets step KeepsNoDead init as ↔
      Meets step (fun s a => ¬ Abandons s a) init as) ∧
    (∀ s, Run step init as s → ∀ f e t, step s (.forwarder f e) = some t →
      ∀ addr g, s.portMap.lookup addr = some g → g ≠ f →
        t.portMap.lookup addr = some g) ∧
    (Meets step (fun s a => ¬ Abandons s a) init as →
      ∀ s, Run step init as s → s.NoDead ∧
        ∀ p s', s.AllFinished p.fromAddr → step s (.packet p) = some s' →
          ∀ bs t, Run step s' bs t → Served p s' bs t) := by
  have hinit : Mapped init ∧ init.NoDead := ⟨mapped_init, noDead_init⟩
  refine ⟨?_, ?_, ?_⟩
  · refine meets_congr (I := fun s => Mapped s ∧ s.NoDead) ?_ ?_ hinit
    · exact fun s a hs => keepsNoDead_iff hs.1 hs.2 a
    · exact fun s a t hs hkeep ht => ⟨mapped_step hs.1 ht, hkeep t ht⟩
  · intro s hrun f e t hs addr g hentry hne
    have hmapped : Mapped s :=
      run_preserves (fun _ _ _ h hs => mapped_step h hs) mapped_init hrun
    exact entry_of_forwarder hmapped hs hentry hne
  · intro hclean s hrun
    obtain ⟨hmapped, hd⟩ : Mapped s ∧ s.NoDead :=
      run_preserves_of_meets (I := fun s => Mapped s ∧ s.NoDead)
        (fun s a t hs ha ht =>
          ⟨mapped_step hs.1 ht, (noDead_step hs.1 hs.2 ht).mpr ha⟩)
        hinit hclean hrun
    refine ⟨hd, ?_⟩
    intro p s' hfinished hs' bs t hrun'
    exact served_of_settingUp (settingUp_packet hmapped hd hfinished hs') hrun'

/-! ## A service that is not there -/

def visitor : SocketAddr := .v4 #v[203, 0, 113, 7] 4242

/-- The first packet of a visitor sets up forwarder 0 and reaches its queue. -/
def firstPacket : List Action :=
  [.packet ⟨visitor, [1]⟩, .main, .main, .connected true, .main, .main]

/-- The socket of the forwarder fails to send, as it does after the service
has refused a datagram. The entry stays, and the visitor's next packet goes to
a queue that nobody reads. -/
theorem socket_error_leaves_entry : ∃ s t,
    Run step init
      (firstPacket ++ [.forwarder 0 .recv, .forwarder 0 (.sent false)]) s ∧
    ¬ s.NoDead ∧ s.AllFinished visitor ∧
    Run step s [.packet ⟨visitor, [2]⟩, .main, .main, .main] t ∧
    t.main = .read ∧ t.forwarders = s.forwarders := by
  refine ⟨_, _, rfl, ?_, ?_, rfl, rfl, rfl⟩
  · intro hd
    exact hd 0 _ rfl rfl rfl
  · intro f fw hfw _
    cases f with
    | zero =>
        cases hfw
        rfl
    | succ f => cases hfw

end Rathole.UdpForward
