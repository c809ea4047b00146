import Rathole.Transport.Listener
import Mathlib.Order.Monotone.Basic

/-!
# Do listeners answer each other for ever?

A listener answers a packet for a stream it does not know with a StreamClose,
"to let the peer clean up", and so it answers a StreamClose. Between two
listeners, or a listener and itself, every answer is a packet for an unknown
stream. A datagram with the address of one listener as its source, sent to
another and delivered three times, is enough.

The net has listeners only, and nobody uses the streams they accept. A
datagram arrives in any order, late, more than once or never. `on_packet` spawns
a task for each answer; when it gets to run is up to the runtime.
-/

namespace Rathole

open Runs

/-- A datagram on its way; the packet says where it comes from. -/
structure Flight where
  dest : SocketAddr
  pkt : IncomingPacket
deriving DecidableEq

/-- A datagram that leaves the socket at `a`. -/
def Flight.sentFrom (a : SocketAddr) (d : Datagram) : Flight :=
  ⟨d.dest, ⟨d.header, d.payload, a⟩⟩

def Listener.new : Listener := ⟨∅, [], [], []⟩

structure ListenerNet where
  /-- By the address of the socket. -/
  listeners : HashMap SocketAddr Listener
  flights : List Flight
  /-- The answers whose tasks have not run yet, oldest first. -/
  spawned : List Flight

namespace ListenerNet

/-- Which of the spawned answers the runtime has a worker for. -/
abbrev Runtime := List Flight → Flight → Bool

/-- `bind` does not make its socket non-blocking, so a worker that waits in
`recv_from` keeps the task it has spawned last. The next one takes its place,
and another worker can run the older one. -/
def Displaces (polls : Runtime) : Prop :=
  ∀ before f after, (∃ g ∈ after, g.pkt.src = f.pkt.src) →
    polls (before ++ f :: after) f = true

/-- The runtime that runs nothing else. -/
def blocking : Runtime := fun spawned f =>
  (spawned.dropWhile (fun g => decide (g ≠ f))).tail.any
    (fun g => decide (g.pkt.src = f.pkt.src))

theorem displaces_blocking : Displaces blocking := by
  rintro before f after ⟨g, hg, hsrc⟩
  unfold blocking
  rw [List.any_eq_true]
  refine ⟨g, ?_, decide_eq_true hsrc⟩
  induction before with
  | nil => simpa using hg
  | cons x before ih =>
      by_cases hx : x = f
      · simp [hx, hg]
      · simpa [hx] using ih

inductive Event where
  | arrive (f : Flight) (now : Instant)
  /-- The task of an answer runs. -/
  | send (f : Flight)
  | lose (f : Flight)
  | duplicate (f : Flight)
  /-- A task takes the next packet of its queue. -/
  | recv (a : SocketAddr) (i : ℕ) (now : Instant)
  | tick (a : SocketAddr) (i : ℕ) (now : Instant)
  | cleanup (a : SocketAddr) (i : ℕ)
deriving DecidableEq

def init (addrs : List SocketAddr) (flights : List Flight) : ListenerNet :=
  ⟨addrs.foldl (fun m a => AList.insert a Listener.new m) ∅, flights, []⟩

/-- The listener at `a` has become `l` and sent `ds`. -/
def put (w : ListenerNet) (a : SocketAddr) (l : Listener) (ds : List Datagram) :
    ListenerNet :=
  { w with
    listeners := AList.insert a l w.listeners
    flights := w.flights ++ ds.map (Flight.sentFrom a) }

/-- The listener at `a` has spawned the tasks that send `ds`. -/
def spawn (w : ListenerNet) (a : SocketAddr) (ds : List Datagram) :
    ListenerNet :=
  { w with spawned := w.spawned ++ ds.map (Flight.sentFrom a) }

/-- The task `i` at `a` has become `t` and sent `ds`. -/
def putTask (w : ListenerNet) (a : SocketAddr) (l : Listener) (i : ℕ)
    (t : StreamTask) (ds : List Datagram) : ListenerNet :=
  w.put a { l with tasks := l.tasks.set i t } ds

def step (polls : Runtime) (w : ListenerNet) : Event → Option ListenerNet
  | .arrive f now =>
      if f ∈ w.flights then
        (w.listeners.lookup f.dest).map (fun l =>
          let r := l.onPacket f.pkt now
          (({ w with flights := w.flights.erase f } : ListenerNet).put f.dest
            r.1 []).spawn f.dest r.2)
      else none
  | .send f =>
      if f ∈ w.spawned ∧ polls w.spawned f = true then
        some { w with spawned := w.spawned.erase f, flights := f :: w.flights }
      else none
  | .lose f =>
      if f ∈ w.flights then some { w with flights := w.flights.erase f }
      else none
  | .duplicate f =>
      if f ∈ w.flights then some { w with flights := f :: w.flights } else none
  | .recv a i now =>
      (w.listeners.lookup a).bind (fun l =>
        (l.tasks[i]?).bind (fun t =>
          match t.packets with
          | [] => none
          | pkt :: rest =>
              (t.endpoint.step (.incoming pkt now)).map (fun r =>
                w.putTask a l i { t with endpoint := r.1, packets := rest }
                  r.2.sent)))
  | .tick a i now =>
      (w.listeners.lookup a).bind (fun l =>
        (l.tasks[i]?).bind (fun t =>
          (t.endpoint.step (.tick now)).map (fun r =>
            w.putTask a l i { t with endpoint := r.1 } r.2.sent)))
  | .cleanup a i =>
      (w.listeners.lookup a).bind (fun l =>
        (l.tasks[i]?).bind (fun t =>
          if t.endpoint.stream.running = false ∧ t.cleaned = false then
            some (w.put a (l.cleanup i t) [])
          else none))

/-- The listener at `f`'s destination does not know the stream, and `g` is its
answer. -/
def Answers (w : ListenerNet) (f : Flight) (now : Instant) (g : Flight) :
    Prop :=
  ∃ l, w.listeners.lookup f.dest = some l ∧
    l.activeStreams.lookup f.pkt.header.channelId = none ∧
    (l.onPacket f.pkt now).2.map (Flight.sentFrom f.dest) = [g]

/-- The events `as` go on for ever from `w`, with an endless chain of answers,
each of which is given to the one before. -/
def EndlessChain (polls : Runtime) (w : ListenerNet) (as : ℕ → Event) : Prop :=
  ∃ ss, ss 0 = w ∧ Endless (step polls) ss as ∧
    ∃ (times : ℕ → ℕ) (f : ℕ → Flight) (now : ℕ → Instant), StrictMono times ∧
      ∀ n, as (times n) = .arrive (f n) (now n) ∧
        Answers (ss (times n)) (f n) (now n) (f (n + 1))

def RepliesForEver (polls : Runtime) (w : ListenerNet) : Prop :=
  ∃ as, EndlessChain polls w as

/-- The network neither loses a datagram nor delivers one twice. -/
def Event.reliable : Event → Prop
  | .lose _ => False
  | .duplicate _ => False
  | _ => True

theorem lookup_init (addrs : List SocketAddr) (flights : List Flight)
    (a : SocketAddr) : (init addrs flights).listeners.lookup a =
      if a ∈ addrs then some Listener.new else none := by
  have hfold : ∀ m : HashMap SocketAddr Listener,
      (addrs.foldl (fun m a => AList.insert a Listener.new m) m).lookup a =
        if a ∈ addrs then some Listener.new else m.lookup a := by
    induction addrs with
    | nil => exact fun m => rfl
    | cons b addrs ih =>
        intro m
        rw [List.foldl_cons, ih]
        by_cases hmem : a ∈ addrs
        · rw [if_pos hmem, if_pos (List.mem_cons_of_mem _ hmem)]
        · rw [if_neg hmem]
          by_cases hab : a = b
          · rw [hab, AList.lookup_insert, if_pos List.mem_cons_self]
          · rw [AList.lookup_insert_ne hab, if_neg]
            simp [hab, hmem]
  exact hfold ∅

theorem lookup_put {w : ListenerNet} {a b : SocketAddr} {l : Listener}
    {ds : List Datagram} : (w.put a l ds).listeners.lookup b =
      if b = a then some l else w.listeners.lookup b := by
  unfold put
  by_cases hab : b = a
  · rw [if_pos hab, hab, AList.lookup_insert]
  · rw [if_neg hab, AList.lookup_insert_ne hab]

theorem spawn_listeners (w : ListenerNet) (a : SocketAddr)
    (ds : List Datagram) : (w.spawn a ds).listeners = w.listeners := rfl

/-! ## Listeners that hear from elsewhere only -/

section

variable {addrs : List SocketAddr}

/-- The task's peer is none of the addresses, nor is the sender of a packet
in its queue. -/
structure Foreign (addrs : List SocketAddr) (t : StreamTask) : Prop where
  wf : t.endpoint.WF
  peer : t.endpoint.snap.peerAddr ∉ addrs
  packets : ∀ pkt ∈ t.packets, pkt.src ∉ addrs

/-- No datagram is on its way from one of the addresses to another, and no
task will send one. -/
structure Apart (addrs : List SocketAddr) (w : ListenerNet) : Prop where
  listens : ∀ a l, w.listeners.lookup a = some l → a ∈ addrs
  flights : ∀ f ∈ w.flights, f.dest ∈ addrs → f.pkt.src ∉ addrs
  spawned : ∀ f ∈ w.spawned, f.dest ∉ addrs
  tasks : ∀ a l, w.listeners.lookup a = some l →
    ∀ t ∈ l.tasks, Foreign addrs t

theorem Foreign.step {t : StreamTask} (ht : Foreign addrs t) {op : Op}
    {r : Endpoint × Output} (hs : t.endpoint.step op = some r)
    (hop : ∀ pkt now, op = .incoming pkt now → pkt.src ∉ addrs)
    {packets : List IncomingPacket}
    (hpackets : ∀ pkt ∈ packets, pkt ∈ t.packets) :
    Foreign addrs { t with endpoint := r.1, packets := packets } ∧
      ∀ d ∈ r.2.sent, d.dest ∉ addrs := by
  obtain ⟨hwf, heff⟩ := Endpoint.wf_step ht.wf hs
  refine ⟨⟨hwf, ?_, fun pkt hpkt => ht.packets pkt (hpackets pkt hpkt)⟩, ?_⟩
  · rcases heff.peerAddr with hsame | ⟨pkt, now, rfl, hsrc⟩
    · show r.1.snap.peerAddr ∉ addrs
      rw [hsame]
      exact ht.peer
    · show r.1.snap.peerAddr ∉ addrs
      rw [hsrc]
      exact hop pkt now rfl
  · intro d hd
    rcases heff.sent_to hd with hpeer | ⟨pkt, now, rfl, hsrc⟩
    · rw [hpeer]
      exact ht.peer
    · rw [hsrc]
      exact hop pkt now rfl

theorem foreign_accepting {src : SocketAddr} (hsrc : src ∉ addrs)
    (channelId : UInt32) (now : Instant) :
    Foreign addrs ⟨Endpoint.accepting channelId src now, [], false⟩ where
  wf := (Endpoint.holds_accepting channelId src now).wf
  peer := hsrc
  packets := fun _ hpkt => absurd hpkt List.not_mem_nil

theorem Foreign.trySend {t : StreamTask} (ht : Foreign addrs t)
    {pkt : IncomingPacket} (hsrc : pkt.src ∉ addrs) :
    Foreign addrs (t.trySend pkt) := by
  unfold StreamTask.trySend
  split
  · refine ⟨ht.wf, ht.peer, ?_⟩
    intro pkt' hpkt'
    rcases List.mem_append.mp hpkt' with hold | hnew
    · exact ht.packets pkt' hold
    · rw [List.mem_singleton.mp hnew]
      exact hsrc
  · exact ht

theorem foreign_set {l : List StreamTask} (hl : ∀ t ∈ l, Foreign addrs t)
    {i : ℕ} {t' : StreamTask} (ht' : Foreign addrs t') :
    ∀ t ∈ l.set i t', Foreign addrs t := by
  intro t ht
  rcases List.mem_or_eq_of_mem_set ht with hold | rfl
  · exact hl t hold
  · exact ht'

theorem foreign_send {l : Listener} (hl : ∀ t ∈ l.tasks, Foreign addrs t)
    {pkt : IncomingPacket} (hsrc : pkt.src ∉ addrs) (i : ℕ) :
    ∀ t ∈ (l.send i pkt).tasks, Foreign addrs t := by
  unfold Listener.send
  cases ht : l.tasks[i]? with
  | none => exact hl
  | some t =>
      exact foreign_set hl ((hl t (List.mem_of_getElem? ht)).trySend hsrc)

theorem foreign_onPacket {l : Listener} (hl : ∀ t ∈ l.tasks, Foreign addrs t)
    {pkt : IncomingPacket} (hsrc : pkt.src ∉ addrs) (now : Instant) :
    (∀ t ∈ (l.onPacket pkt now).1.tasks, Foreign addrs t) ∧
      ∀ d ∈ (l.onPacket pkt now).2, d.dest ∉ addrs := by
  unfold Listener.onPacket
  split
  · exact ⟨foreign_send hl hsrc _, fun d hd => absurd hd List.not_mem_nil⟩
  · split
    · refine ⟨foreign_send ?_ hsrc _,
        fun d hd => absurd hd List.not_mem_nil⟩
      intro t ht
      rcases List.mem_append.mp ht with hold | hnew
      · exact hl t hold
      · rw [List.mem_singleton.mp hnew]
        exact foreign_accepting hsrc _ now
    · refine ⟨hl, ?_⟩
      intro d hd
      rw [List.mem_singleton.mp hd]
      exact hsrc

variable {polls : Runtime} {w w' : ListenerNet}

theorem Apart.put (hw : Apart addrs w) {a : SocketAddr} {l l' : Listener}
    (ha : w.listeners.lookup a = some l)
    (hl' : ∀ t ∈ l'.tasks, Foreign addrs t) {ds : List Datagram}
    (hds : ∀ d ∈ ds, d.dest ∉ addrs) : Apart addrs (w.put a l' ds) := by
  refine ⟨?_, ?_, hw.spawned, ?_⟩
  · intro b x hb
    rw [lookup_put] at hb
    split at hb
    · rename_i hba
      rw [hba]
      exact hw.listens a l ha
    · exact hw.listens b x hb
  · intro f hf hdest
    rcases List.mem_append.mp hf with hold | hnew
    · exact hw.flights f hold hdest
    · obtain ⟨d, hd, rfl⟩ := List.mem_map.mp hnew
      exact absurd hdest (hds d hd)
  · intro b x hb
    rw [lookup_put] at hb
    split at hb
    · cases hb
      exact hl'
    · exact hw.tasks b x hb

theorem Apart.spawn (hw : Apart addrs w) {a : SocketAddr} {ds : List Datagram}
    (hds : ∀ d ∈ ds, d.dest ∉ addrs) : Apart addrs (w.spawn a ds) := by
  refine ⟨hw.listens, hw.flights, ?_, hw.tasks⟩
  intro f hf
  rcases List.mem_append.mp hf with hold | hnew
  · exact hw.spawned f hold
  · obtain ⟨d, hd, rfl⟩ := List.mem_map.mp hnew
    exact hds d hd

/-- Fewer datagrams, or the same ones again, do no harm. -/
theorem Apart.flights_subset (hw : Apart addrs w) {flights : List Flight}
    (hsub : flights ⊆ w.flights) :
    Apart addrs { w with flights := flights } :=
  ⟨hw.listens, fun f hf => hw.flights f (hsub hf), hw.spawned, hw.tasks⟩

theorem Apart.step (hw : Apart addrs w) {e : Event}
    (hs : w.step polls e = some w') : Apart addrs w' := by
  cases e with
  | arrive f now =>
      simp only [ListenerNet.step] at hs
      split at hs
      · rename_i hf
        obtain ⟨l, hl, rfl⟩ := Option.map_eq_some_iff.mp hs
        have hsrc := hw.flights f hf (hw.listens f.dest l hl)
        obtain ⟨htasks, hsent⟩ :=
          foreign_onPacket (hw.tasks f.dest l hl) hsrc now
        exact ((hw.flights_subset List.erase_subset).put hl htasks
          (fun d hd => absurd hd List.not_mem_nil)).spawn hsent
      · cases hs
  | send f =>
      simp only [ListenerNet.step] at hs
      split at hs
      · rename_i hf
        cases hs
        refine ⟨hw.listens, ?_,
          fun g hg => hw.spawned g (List.mem_of_mem_erase hg), hw.tasks⟩
        intro g hg hdest
        rcases List.mem_cons.mp hg with rfl | hold
        · exact absurd hdest (hw.spawned g hf.1)
        · exact hw.flights g hold hdest
      · cases hs
  | lose f =>
      simp only [ListenerNet.step] at hs
      split at hs
      · cases hs
        exact hw.flights_subset List.erase_subset
      · cases hs
  | duplicate f =>
      simp only [ListenerNet.step] at hs
      split at hs
      · rename_i hf
        cases hs
        exact hw.flights_subset (List.cons_subset.mpr ⟨hf, List.Subset.refl _⟩)
      · cases hs
  | recv a i now =>
      simp only [ListenerNet.step] at hs
      obtain ⟨l, hl, hs⟩ := Option.bind_eq_some_iff.mp hs
      obtain ⟨t, ht, hs⟩ := Option.bind_eq_some_iff.mp hs
      have hforeign := hw.tasks a l hl t (List.mem_of_getElem? ht)
      split at hs
      · cases hs
      · rename_i pkt rest hpackets
        obtain ⟨r, hr, rfl⟩ := Option.map_eq_some_iff.mp hs
        have hqueued : ∀ x ∈ pkt :: rest, x ∈ t.packets :=
          fun x hx => hpackets ▸ hx
        have hsrc : pkt.src ∉ addrs :=
          hforeign.packets pkt (hqueued pkt List.mem_cons_self)
        obtain ⟨ht', hsent⟩ := hforeign.step hr (by
          rintro pkt' now' heq
          cases heq
          exact hsrc) (fun x hx => hqueued x (List.mem_cons_of_mem _ hx))
        exact hw.put hl (foreign_set (hw.tasks a l hl) ht') hsent
  | tick a i now =>
      simp only [ListenerNet.step] at hs
      obtain ⟨l, hl, hs⟩ := Option.bind_eq_some_iff.mp hs
      obtain ⟨t, ht, hs⟩ := Option.bind_eq_some_iff.mp hs
      have hforeign := hw.tasks a l hl t (List.mem_of_getElem? ht)
      obtain ⟨r, hr, rfl⟩ := Option.map_eq_some_iff.mp hs
      obtain ⟨ht', hsent⟩ := hforeign.step hr nofun (fun _ hpkt => hpkt)
      exact hw.put hl (foreign_set (hw.tasks a l hl) ht') hsent
  | cleanup a i =>
      simp only [ListenerNet.step] at hs
      obtain ⟨l, hl, hs⟩ := Option.bind_eq_some_iff.mp hs
      obtain ⟨t, ht, hs⟩ := Option.bind_eq_some_iff.mp hs
      obtain ⟨hwf, hpeer, hpackets⟩ :=
        hw.tasks a l hl t (List.mem_of_getElem? ht)
      have ht' : Foreign addrs { t with cleaned := true } :=
        ⟨hwf, hpeer, hpackets⟩
      split at hs
      · cases hs
        exact hw.put hl (foreign_set (hw.tasks a l hl) ht')
          (fun d hd => absurd hd List.not_mem_nil)
      · cases hs

theorem apart_init {flights : List Flight}
    (h : ∀ f ∈ flights, f.dest ∈ addrs → f.pkt.src ∉ addrs) :
    Apart addrs (init addrs flights) where
  listens := by
    intro a l ha
    rw [lookup_init] at ha
    split at ha
    · rename_i hmem
      exact hmem
    · cases ha
  flights := h
  spawned := fun f hf => absurd hf List.not_mem_nil
  tasks := by
    intro a l ha
    rw [lookup_init] at ha
    split at ha
    · cases ha
      exact fun t ht => absurd ht List.not_mem_nil
    · cases ha

/-- An answer goes to the sender of what it answers. -/
theorem Answers.dest {f g : Flight} {now : Instant} (h : Answers w f now g) :
    g.dest = f.pkt.src := by
  obtain ⟨l, -, hnone, hsent⟩ := h
  unfold Listener.onPacket at hsent
  rw [hnone] at hsent
  dsimp only at hsent
  split at hsent
  · cases hsent
  · cases hsent
    rfl

theorem arrive_inv {f : Flight} {now : Instant}
    (hs : w.step polls (.arrive f now) = some w') :
    f ∈ w.flights ∧ ∃ l, w.listeners.lookup f.dest = some l := by
  simp only [ListenerNet.step] at hs
  split at hs
  · rename_i hf
    obtain ⟨l, hl, -⟩ := Option.map_eq_some_iff.mp hs
    exact ⟨hf, l, hl⟩
  · cases hs

/-- Where no datagram goes from one to another, the second answer of a chain
is never given. -/
theorem Apart.not_repliesForEver (hw : Apart addrs w) :
    ¬ RepliesForEver polls w := by
  rintro ⟨as, ss, rfl, hend, times, f, now, -, hchain⟩
  have hall :=
    hend.preserves (I := Apart addrs) (fun _ _ _ h hs => h.step hs) hw
  obtain ⟨harrive, hanswers⟩ := hchain 0
  obtain ⟨harrive', -⟩ := hchain 1
  have hfirst := hend (times 0)
  rw [harrive] at hfirst
  obtain ⟨hf, l, hl⟩ := arrive_inv hfirst
  have hsecond := hend (times 1)
  rw [harrive'] at hsecond
  obtain ⟨-, l', hl'⟩ := arrive_inv hsecond
  have hsrc := (hall (times 0)).flights (f 0) hf
    ((hall (times 0)).listens _ l hl)
  rw [← hanswers.dest] at hsrc
  exact hsrc ((hall (times 1)).listens _ l' hl')

end

/-! ## Two listeners, or one and itself -/

/-- A StreamClose for the stream `ch`, from `a` to `b`. -/
def closeFlight (ch : UInt32) (a b : SocketAddr) : Flight :=
  ⟨b, ⟨⟨ch, .streamClose, 0, 0, 0⟩, [], a⟩⟩

/-- The listener at `a` does not know the stream. -/
def Unknown (w : ListenerNet) (a : SocketAddr) (ch : UInt32) : Prop :=
  ∃ l, w.listeners.lookup a = some l ∧ l.activeStreams.lookup ch = none

variable {polls : Runtime} {w w' : ListenerNet} {ch : UInt32}
  {a b : SocketAddr}

/-- The answer to a packet for a stream that its receiver does not know. -/
def reply (f : Flight) : Flight :=
  closeFlight f.pkt.header.channelId f.dest f.pkt.src

/-- A packet for an unknown stream has its answer spawned, and changes no
listener. -/
theorem arrive_unknown (polls : Runtime) {f : Flight} (hf : f ∈ w.flights)
    (hunknown : w.Unknown f.dest f.pkt.header.channelId)
    (hkind : f.pkt.header.packetKind ≠ .streamOpen) :
    ∃ w', w.step polls (.arrive f 0) = some w' ∧
      w'.flights = w.flights.erase f ∧
      w'.spawned = w.spawned ++ [reply f] ∧
      (∀ a ch, w.Unknown a ch → w'.Unknown a ch) ∧
      Answers w f 0 (reply f) := by
  obtain ⟨l, hl, hnone⟩ := hunknown
  have hpacket : l.onPacket f.pkt 0 = (l,
      [⟨⟨f.pkt.header.channelId, .streamClose, 0, 0, 0⟩, [], f.pkt.src⟩]) := by
    unfold Listener.onPacket
    rw [hnone]
    dsimp only
    rw [if_neg hkind]
  refine ⟨(({ w with flights := w.flights.erase f } : ListenerNet).put f.dest l
    []).spawn f.dest
      [⟨⟨f.pkt.header.channelId, .streamClose, 0, 0, 0⟩, [], f.pkt.src⟩],
    ?_, ?_, rfl, ?_, ?_⟩
  · simp only [step, if_pos hf, hl, Option.map_some, hpacket]
  · exact List.append_nil _
  · rintro a ch ⟨x, hx, hch⟩
    refine ⟨x, ?_, hch⟩
    rw [spawn_listeners, lookup_put]
    split
    · rename_i ha
      rw [← hl, ← hx, ha]
    · exact hx
  · refine ⟨l, hl, hnone, ?_⟩
    rw [hpacket]
    rfl

/-- An answer goes out once the same one has been spawned again. -/
theorem send_again (hpolls : Displaces polls) {f : Flight}
    {held : List Flight} (hf : f ∈ held) (hw : w.spawned = held ++ [f]) :
    w.step polls (.send f) = some { w with
      spawned := held.erase f ++ [f], flights := f :: w.flights } := by
  obtain ⟨before, after, rfl⟩ := List.append_of_mem hf
  have hready : polls w.spawned f = true := by
    rw [hw, List.append_assoc, List.cons_append]
    exact hpolls before f (after ++ [f])
      ⟨f, List.mem_append_right _ (List.mem_singleton.mpr rfl), rfl⟩
  have hmem : f ∈ w.spawned := hw ▸ List.mem_append_left _ hf
  simp only [step]
  rw [if_pos ⟨hmem, hready⟩, hw, List.erase_append_left _ hf]

/-- A listener that holds an answer back already sends it for the next
packet. -/
theorem relay (hpolls : Displaces polls) {f : Flight} (hf : f ∈ w.flights)
    (hunknown : w.Unknown f.dest f.pkt.header.channelId)
    (hkind : f.pkt.header.packetKind ≠ .streamOpen)
    (hheld : reply f ∈ w.spawned) :
    ∃ w', Run (step polls) w [.arrive f 0, .send (reply f)] w' ∧
      w'.flights = reply f :: w.flights.erase f ∧ reply f ∈ w'.spawned ∧
      ∀ a ch, w.Unknown a ch → w'.Unknown a ch := by
  obtain ⟨v, harrive, hflights, hspawned, hkeep, -⟩ :=
    arrive_unknown polls hf hunknown hkind
  refine ⟨_, run_cons.mpr ⟨v, harrive, run_cons.mpr
    ⟨_, send_again hpolls hheld hspawned, run_nil.mpr rfl⟩⟩, ?_, ?_, hkeep⟩
  · exact congrArg _ hflights
  · exact List.mem_append_right _ (List.mem_singleton.mpr rfl)

/-! ### The exchange of StreamCloses -/

/-- What goes to and fro between `a` and `b`. -/
def bounce (ch : UInt32) (a b : SocketAddr) (n : ℕ) : Flight :=
  if n % 2 = 0 then closeFlight ch a b else closeFlight ch b a

theorem bounce_add_two (n : ℕ) : bounce ch a b (n + 2) = bounce ch a b n := by
  unfold bounce
  rw [Nat.add_mod_right]

theorem reply_bounce (n : ℕ) :
    reply (bounce ch a b n) = bounce ch a b (n + 1) := by
  unfold bounce
  rcases Nat.mod_two_eq_zero_or_one n with hn | hn
  · rw [if_pos hn, if_neg (by omega)]
    rfl
  · rw [if_neg (by omega), if_pos (by omega)]
    rfl

/-- The `n`-th StreamClose is on its way, and each of the two holds an answer
back. -/
structure Underway (ch : UInt32) (a b : SocketAddr) (n : ℕ) (w : ListenerNet) :
    Prop where
  left : w.Unknown a ch
  right : w.Unknown b ch
  flight : bounce ch a b n ∈ w.flights
  held : bounce ch a b n ∈ w.spawned ∧ bounce ch a b (n + 1) ∈ w.spawned

/-- The `n`-th StreamClose has arrived, and its receiver holds two answers. -/
structure Arrived (ch : UInt32) (a b : SocketAddr) (n : ℕ) (w : ListenerNet) :
    Prop where
  left : w.Unknown a ch
  right : w.Unknown b ch
  held : ∃ held, w.spawned = held ++ [bounce ch a b (n + 1)] ∧
    bounce ch a b n ∈ held ∧ bounce ch a b (n + 1) ∈ held

theorem Underway.arrive (polls : Runtime) {n : ℕ} (h : Underway ch a b n w) :
    ∃ w', w.step polls (.arrive (bounce ch a b n) 0) = some w' ∧
      Arrived ch a b n w' ∧
      Answers w (bounce ch a b n) 0 (bounce ch a b (n + 1)) := by
  have hunknown : w.Unknown (bounce ch a b n).dest
      (bounce ch a b n).pkt.header.channelId := by
    unfold bounce
    split
    · exact h.right
    · exact h.left
  have hkind : (bounce ch a b n).pkt.header.packetKind ≠ .streamOpen := by
    unfold bounce
    split <;> nofun
  obtain ⟨w', hs, -, hspawned, hkeep, hans⟩ :=
    arrive_unknown polls h.flight hunknown hkind
  rw [reply_bounce] at hspawned hans
  exact ⟨w', hs, ⟨hkeep a ch h.left, hkeep b ch h.right, w.spawned, hspawned,
    h.held⟩, hans⟩

theorem Arrived.send (hpolls : Displaces polls) {n : ℕ}
    (h : Arrived ch a b n w) :
    ∃ w', w.step polls (.send (bounce ch a b (n + 1))) = some w' ∧
      Underway ch a b (n + 1) w' := by
  obtain ⟨held, hspawned, hother, hsame⟩ := h.held
  refine ⟨_, send_again hpolls hsame hspawned, h.left, h.right,
    List.mem_cons_self, List.mem_append_right _ (List.mem_singleton.mpr rfl),
    ?_⟩
  rw [bounce_add_two]
  by_cases heq : bounce ch a b n = bounce ch a b (n + 1)
  · rw [heq]
    exact List.mem_append_right _ (List.mem_singleton.mpr rfl)
  · exact List.mem_append_left _ ((List.mem_erase_of_ne heq).mpr hother)

/-- Arrivals and answers in turn. -/
def exchange (ch : UInt32) (a b : SocketAddr) (k : ℕ) : Event :=
  if k % 2 = 0 then .arrive (bounce ch a b (k / 2)) 0
  else .send (bounce ch a b (k / 2 + 1))

theorem reliable_exchange (k : ℕ) : (exchange ch a b k).reliable := by
  unfold exchange
  split <;> trivial

/-- **The exchange goes on for ever.** -/
theorem Underway.endless (hpolls : Displaces polls)
    (h : Underway ch a b 0 w) :
    EndlessChain polls w (exchange ch a b) := by
  let I : ℕ → ListenerNet → Prop := fun k w =>
    if k % 2 = 0 then Underway ch a b (k / 2) w else Arrived ch a b (k / 2) w
  have heven : ∀ n w, I (2 * n) w ↔ Underway ch a b n w := by
    intro n w
    simp [I]
  have hodd : ∀ n w, I (2 * n + 1) w ↔ Arrived ch a b n w := by
    intro n w
    have hhalf : (2 * n + 1) / 2 = n := by omega
    simp [I, hhalf]
  have harrive : ∀ n, exchange ch a b (2 * n) =
      .arrive (bounce ch a b n) 0 := by
    intro n
    simp [exchange]
  have hsend : ∀ n, exchange ch a b (2 * n + 1) =
      .send (bounce ch a b (n + 1)) := by
    intro n
    have hhalf : (2 * n + 1) / 2 = n := by omega
    simp [exchange, hhalf]
  have hstep : ∀ k w, I k w → ∃ w', step polls w (exchange ch a b k) = some w' ∧
      I (k + 1) w' := by
    intro k w hw
    obtain ⟨n, rfl | rfl⟩ := Nat.even_or_odd' k
    · obtain ⟨w', hs, hw', -⟩ := ((heven n w).mp hw).arrive polls
      exact ⟨w', by rw [harrive, hs], (hodd n w').mpr hw'⟩
    · obtain ⟨w', hs, hw'⟩ := Arrived.send hpolls ((hodd n w).mp hw)
      exact ⟨w', by rw [hsend, hs], (heven (n + 1) w').mpr hw'⟩
  obtain ⟨ss, hss, hend, hall⟩ := exists_endless hstep ((heven 0 w).mpr h)
  refine ⟨ss, hss, hend, fun n => 2 * n, bounce ch a b, fun _ => 0, ?_, ?_⟩
  · intro m n hmn
    dsimp only
    omega
  · intro n
    obtain ⟨-, -, -, hans⟩ := ((heven n _).mp (hall (2 * n))).arrive polls
    exact ⟨harrive n, hans⟩

/-- What goes on for ever after a run goes on for ever from its start. -/
theorem EndlessChain.before {es : List Event} {as : ℕ → Event}
    (h : EndlessChain polls w' as) (hrun : Run (step polls) w es w') :
    ∃ as', EndlessChain polls w as' ∧
      ∀ k, as' k ∈ es ∨ ∃ n, as' k = as n := by
  obtain ⟨ss, rfl, hend, times, f, now, htimes, hchain⟩ := h
  obtain ⟨ss', as', rfl, hend', hsame, hbefore⟩ := hend.prepend hrun
  refine ⟨as', ⟨ss', rfl, hend', fun n => times n + es.length, f, now, ?_, ?_⟩,
    ?_⟩
  · intro m n hmn
    have := htimes hmn
    dsimp only
    omega
  · intro n
    obtain ⟨hstate, haction⟩ := hsame (times n)
    dsimp only
    rw [hstate, haction]
    exact hchain n
  · intro k
    by_cases hk : k < es.length
    · exact Or.inl (hbefore k hk)
    · refine Or.inr ⟨k - es.length, ?_⟩
      rw [← (hsame (k - es.length)).2, Nat.sub_add_cancel (by omega)]

/-- Three copies of a packet for a stream that neither of two listeners knows:
one answer stays behind at each of them, and the third goes to and fro. -/
theorem underway_of_three (hpolls : Displaces polls) {f : Flight}
    (hf : 3 ≤ w.flights.count f)
    (hdest : w.Unknown f.dest f.pkt.header.channelId)
    (hsrc : w.Unknown f.pkt.src f.pkt.header.channelId)
    (hkind : f.pkt.header.packetKind ≠ .streamOpen) :
    ∃ es w', Run (step polls) w es w' ∧ (∀ e ∈ es, e.reliable) ∧
      Underway f.pkt.header.channelId f.dest f.pkt.src 0 w' := by
  obtain ⟨w₁, hs₁, hflights₁, hspawned₁, hkeep₁, -⟩ :=
    arrive_unknown polls (List.count_pos_iff.mp (by omega)) hdest
      hkind
  have hcount₁ : 2 ≤ w₁.flights.count f := by
    rw [hflights₁, List.count_erase_self]
    omega
  obtain ⟨w₂, hrun₂, hflights₂, hheld₂, hkeep₂⟩ :=
    relay hpolls (List.count_pos_iff.mp (by omega)) (hkeep₁ _ _ hdest) hkind
      (hspawned₁ ▸ List.mem_append_right _ (List.mem_singleton.mpr rfl))
  have hleft : f ∈ w₁.flights.erase f := by
    rw [← List.count_pos_iff, List.count_erase_self]
    omega
  obtain ⟨w₃, hrun₃, hflights₃, hheld₃, hkeep₃⟩ :=
    relay hpolls (hflights₂ ▸ List.mem_cons_of_mem _ hleft)
      (hkeep₂ _ _ (hkeep₁ _ _ hdest)) hkind hheld₂
  have hkeep : ∀ a ch, w.Unknown a ch → w₃.Unknown a ch :=
    fun a ch h => hkeep₃ a ch (hkeep₂ a ch (hkeep₁ a ch h))
  -- two answers are on their way, one of which stays with the other listener
  have htwo : reply f ∈ w₃.flights.erase (reply f) := by
    rw [hflights₃, hflights₂, List.erase_cons_head]
    by_cases hsame : reply f = f
    · rw [hsame, List.erase_cons_head]
      exact hleft
    · exact (List.mem_erase_of_ne hsame).mpr List.mem_cons_self
  obtain ⟨w₄, hs₄, hflights₄, hspawned₄, hkeep₄, -⟩ :=
    arrive_unknown polls (List.mem_of_mem_erase htwo) (hkeep _ _ hsrc) nofun
  refine ⟨_, w₄, run_cons.mpr ⟨w₁, hs₁, run_append.mpr ⟨w₂, hrun₂,
    run_append.mpr ⟨w₃, hrun₃, run_cons.mpr ⟨w₄, hs₄, run_nil.mpr rfl⟩⟩⟩⟩,
    ?_, ?_⟩
  · intro e he
    simp only [List.mem_cons, List.mem_append, List.not_mem_nil,
      or_false] at he
    rcases he with rfl | (rfl | rfl) | (rfl | rfl) | rfl <;> trivial
  · refine ⟨hkeep₄ _ _ (hkeep _ _ hdest), hkeep₄ _ _ (hkeep _ _ hsrc), ?_, ?_,
      ?_⟩
    · rw [hflights₄]
      exact htwo
    · rw [hspawned₄]
      exact List.mem_append_left _ hheld₃
    · rw [hspawned₄]
      exact List.mem_append_right _ (List.mem_singleton.mpr rfl)

/-- A network that delivers a packet for an unknown stream three times makes
its answers go on for ever. -/
theorem repliesForEver_of_unknown (hpolls : Displaces polls) {f : Flight}
    (hf : f ∈ w.flights)
    (hdest : w.Unknown f.dest f.pkt.header.channelId)
    (hsrc : w.Unknown f.pkt.src f.pkt.header.channelId)
    (hkind : f.pkt.header.packetKind ≠ .streamOpen) :
    RepliesForEver polls w := by
  let twice : ListenerNet := { w with flights := f :: w.flights }
  let thrice : ListenerNet := { w with flights := f :: f :: w.flights }
  have hcopies : Run (step polls) w [.duplicate f, .duplicate f] thrice :=
    run_cons.mpr ⟨twice, if_pos hf, run_cons.mpr
      ⟨thrice, if_pos List.mem_cons_self, run_nil.mpr rfl⟩⟩
  have hthree : 3 ≤ thrice.flights.count f := by
    have hpos := List.count_pos_iff.mpr hf
    simp only [thrice, List.count_cons_self]
    omega
  obtain ⟨es, w', hrun, -, hunderway⟩ :=
    underway_of_three (w := thrice) hpolls hthree hdest hsrc hkind
  obtain ⟨as, has, -⟩ := (hunderway.endless hpolls).before
    (run_append.mpr ⟨thrice, hcopies, hrun⟩)
  exact ⟨as, has⟩

/-! ### A StreamOpen between two listeners -/

/-- The task of a stream that a StreamOpen has just made answers the open, and
is then open and idle. -/
theorem accepting_open (pkt : IncomingPacket)
    (hkind : pkt.header.packetKind = .streamOpen) (now : Instant) :
    ∃ e out d, (Endpoint.accepting pkt.header.channelId pkt.src now).step
        (.incoming pkt now) = some (e, out) ∧
      out.sent = [d] ∧ d.header.channelId = pkt.header.channelId ∧
      d.header.packetKind = .streamOpenAck ∧ d.dest = pkt.src ∧ e.WF ∧
      e.stream.streamId = pkt.header.channelId ∧ e.snap.running = true ∧
      e.snap.st.writeQueue.isEmpty = true ∧ e.snap.lastReceived = now := by
  have hwf :=
    (Endpoint.holds_accepting pkt.header.channelId pkt.src now).wf
  have hs : ∃ r, (Endpoint.accepting pkt.header.channelId pkt.src now).step
      (.incoming pkt now) = some r := by
    simp only [Endpoint.step]
    rw [if_pos]
    · exact ⟨_, rfl⟩
    · refine ⟨rfl, ?_⟩
      simp [Endpoint.routes, Endpoint.accepting, UdpStream.new]
  obtain ⟨⟨e, out⟩, hs⟩ := hs
  obtain ⟨hwf', heff⟩ := Endpoint.wf_step hwf hs
  obtain ⟨hview, hsent⟩ := heff.incoming_inv rfl
  have hst : (Endpoint.accepting pkt.header.channelId pkt.src now).snap.st =
      StreamState.new .tcp :=
    (Endpoint.holds_accepting pkt.header.channelId pkt.src now).st_eq
  rw [hst] at hview hsent
  have hdispatch : UdpStreamInner.dispatch (StreamState.new .tcp) pkt now =
      ({ StreamState.new .tcp with established := true }, false,
        [⟨.streamOpenAck, 0, 0, 0, []⟩], []) := by
    unfold UdpStreamInner.dispatch
    rw [hkind]
  rw [hdispatch] at hview hsent
  refine ⟨e, out, _, hs, hsent, rfl, rfl, rfl, hwf',
    (Endpoint.step_streamId hwf hs).1, ?_, ?_, ?_⟩
  · rw [hview]
    rfl
  · rw [hview]
    rfl
  · rw [hview]

/-- A task that has heard nothing for more than 300 seconds and has nothing to
send ends at its next tick. -/
theorem tick_idle {e : Endpoint} {now : Instant} (hwf : e.WF)
    (hrun : e.snap.running = true)
    (hempty : e.snap.st.writeQueue.isEmpty = true)
    (hidle : now - e.snap.lastReceived > secs 300) :
    ∃ e' out, e.step (.tick now) = some (e', out) ∧
      e'.stream.running = false ∧ e'.stream.streamId = e.stream.streamId := by
  have hstreams : e.stream.inner.reliability.streams.entries =
      [⟨e.stream.streamId, e.st⟩] := by
    rw [hwf]
    rfl
  have hend : ∃ msg, e.stream.inner.handleTick now =
      (e.stream.inner, .error msg) := by
    unfold UdpStreamInner.handleTick
    by_cases hclosed : e.stream.inner.closed = true
    · rw [if_pos hclosed]
      exact ⟨_, rfl⟩
    · rw [if_neg hclosed, hstreams]
      dsimp only
      rw [if_pos]
      · exact ⟨_, rfl⟩
      · have hempty : e.st.writeQueue.isEmpty = true := hempty
        have hidle : now - e.stream.inner.lastReceived > secs 300 := hidle
        simp [hempty, hidle]
  obtain ⟨msg, hend⟩ := hend
  simp only [Endpoint.step]
  rw [if_pos (show e.stream.running = true from hrun)]
  unfold UdpStream.tick
  rw [hend]
  exact ⟨_, _, rfl, rfl, rfl⟩

theorem lookup_put_self (w : ListenerNet) (a : SocketAddr) (l : Listener)
    (ds : List Datagram) : (w.put a l ds).listeners.lookup a = some l := by
  rw [lookup_put, if_pos rfl]

/-- A new listener takes a StreamOpen, answers it and forgets the stream when
its task has ended; nothing happens at the others. -/
theorem open_forgotten (polls : Runtime) {f : Flight} (hf : f ∈ w.flights)
    (hdest : w.listeners.lookup f.dest = some Listener.new)
    (hkind : f.pkt.header.packetKind = .streamOpen) :
    ∃ es w' ack, Run (step polls) w es w' ∧ ack ∈ w'.flights ∧
      ack.dest = f.pkt.src ∧ ack.pkt.src = f.dest ∧
      ack.pkt.header.channelId = f.pkt.header.channelId ∧
      ack.pkt.header.packetKind = .streamOpenAck ∧
      w'.Unknown f.dest f.pkt.header.channelId ∧
      ∀ a, a ≠ f.dest → w'.listeners.lookup a = w.listeners.lookup a := by
  obtain ⟨e, out, d, hopen, hsent, hdch, hdkind, hddest, hwf, hid, hrun, hempty,
    hlast⟩ := accepting_open f.pkt hkind 0
  have hidle : secs 301 - e.snap.lastReceived > secs 300 := by
    rw [hlast]
    decide
  obtain ⟨e', out', htick, hstopped, hid'⟩ := tick_idle hwf hrun hempty hidle
  -- the listener at the destination, with its one task
  let at₀ : StreamTask → Listener := fun t => { Listener.new with
    activeStreams := AList.insert f.pkt.header.channelId 0 ∅
    tasks := [t]
    incoming := [0] }
  let t₀ : StreamTask := ⟨Endpoint.accepting f.pkt.header.channelId f.pkt.src 0,
    [f.pkt], false⟩
  let w₁ := (({ w with flights := w.flights.erase f } : ListenerNet).put f.dest
    (at₀ t₀) []).spawn f.dest []
  let w₂ := w₁.put f.dest (at₀ ⟨e, [], false⟩) out.sent
  let w₃ := w₂.put f.dest (at₀ ⟨e', [], false⟩) out'.sent
  let gone : Listener := (at₀ ⟨e', [], false⟩).cleanup 0 ⟨e', [], false⟩
  let w₄ := w₃.put f.dest gone []
  have h₁ : w.step polls (.arrive f 0) = some w₁ := by
    have hspawn : Listener.new.onPacket f.pkt 0 = (at₀ t₀, []) := by
      unfold Listener.onPacket
      dsimp only [Listener.new, AList.lookup_empty]
      rw [if_pos hkind, Listener.spawn_send]
      rfl
    simp only [step, if_pos hf, hdest, Option.map_some, hspawn]
    rfl
  have h₂ : w₁.step polls (.recv f.dest 0 0) = some w₂ := by
    simp only [step, w₁, spawn, lookup_put_self, Option.bind_some]
    show ((Endpoint.accepting _ _ _).step _).map _ = _
    rw [hopen]
    rfl
  have h₃ : w₂.step polls (.tick f.dest 0 (secs 301)) = some w₃ := by
    simp only [step, w₂, lookup_put_self, Option.bind_some]
    show (e.step _).map _ = _
    rw [htick]
    rfl
  have h₄ : w₃.step polls (.cleanup f.dest 0) = some w₄ := by
    simp only [step, w₃, lookup_put_self, Option.bind_some]
    show (if e'.stream.running = false ∧ false = false then _ else none) = _
    rw [if_pos ⟨hstopped, rfl⟩]
  refine ⟨_, w₄, ⟨d.dest, ⟨d.header, d.payload, f.dest⟩⟩,
    run_cons.mpr ⟨w₁, h₁, run_cons.mpr ⟨w₂, h₂, run_cons.mpr ⟨w₃, h₃,
      run_cons.mpr ⟨w₄, h₄, run_nil.mpr rfl⟩⟩⟩⟩, ?_, hddest, rfl, hdch,
    hdkind, ⟨gone, lookup_put_self _ _ _ _, ?_⟩, ?_⟩
  · apply List.mem_append_left
    apply List.mem_append_left
    apply List.mem_append_right
    rw [hsent]
    exact List.mem_singleton.mpr rfl
  · have hgone : StreamTask.streamId ⟨e', [], false⟩ =
        f.pkt.header.channelId := hid'.trans hid
    show AList.lookup f.pkt.header.channelId (AList.erase _ _) = none
    rw [hgone, AList.lookup_erase]
  · intro a hne
    simp only [w₄, w₃, w₂, w₁, spawn, lookup_put, if_neg hne]

/-- A StreamOpen between two listeners makes a stream that the other end does
not know; when its task has ended, the answer to the open is for a stream that
neither of them knows. -/
theorem repliesForEver_of_open (hpolls : Displaces polls) {f : Flight}
    (hf : f ∈ w.flights)
    (hdest : w.listeners.lookup f.dest = some Listener.new)
    (hsrc : w.listeners.lookup f.pkt.src = some Listener.new)
    (hkind : f.pkt.header.packetKind = .streamOpen) :
    RepliesForEver polls w := by
  obtain ⟨es, w', ack, hrun, hmem, hadest, hasrc, hach, hakind, hforgot,
    hothers⟩ := open_forgotten polls hf hdest hkind
  have hnever : w'.Unknown f.pkt.src f.pkt.header.channelId := by
    by_cases hsame : f.pkt.src = f.dest
    · rw [hsame]
      exact hforgot
    · exact ⟨Listener.new, (hothers _ hsame).trans hsrc, rfl⟩
  have hloop : RepliesForEver polls w' := by
    refine repliesForEver_of_unknown hpolls hmem ?_ ?_ ?_
    · rw [hadest, hach]
      exact hnever
    · rw [hasrc, hach]
      exact hforgot
    · rw [hakind]
      decide
  obtain ⟨as, has⟩ := hloop
  obtain ⟨as', has', -⟩ := has.before hrun
  exact ⟨as', has'⟩

/-- **Listeners answer each other for ever** exactly if a datagram is on its
way from one of them to another, or to itself. -/
theorem repliesForEver_iff {polls : Runtime} (hpolls : Displaces polls)
    (addrs : List SocketAddr) (flights : List Flight) :
    ¬ RepliesForEver polls (init addrs flights) ↔
      ∀ f ∈ flights, f.dest ∈ addrs → f.pkt.src ∉ addrs := by
  constructor
  · intro hnot f hf hdest hsrc
    apply hnot
    have hdest := (lookup_init addrs flights f.dest).trans (if_pos hdest)
    have hsrc := (lookup_init addrs flights f.pkt.src).trans (if_pos hsrc)
    by_cases hkind : f.pkt.header.packetKind = .streamOpen
    · exact repliesForEver_of_open hpolls hf hdest hsrc hkind
    · exact repliesForEver_of_unknown hpolls hf ⟨_, hdest, rfl⟩
        ⟨_, hsrc, rfl⟩ hkind
  · exact fun h => (apart_init h).not_repliesForEver

/-- A chunk of an unknown stream, sent to one listener in the name of
another. -/
def spoofed : Flight :=
  ⟨listenerAddr,
    ⟨⟨9, .stream, 1, 0, 0⟩, [0], .v4 #v[10, 0, 0, 3] 2333⟩⟩

theorem repliesForEver_spoofed : RepliesForEver blocking
    (init [.v4 #v[10, 0, 0, 2] 2333, .v4 #v[10, 0, 0, 3] 2333] [spoofed]) := by
  by_contra hnot
  exact (repliesForEver_iff displaces_blocking _ _).mp hnot spoofed
    List.mem_cons_self (by decide) (by decide)

/-- Sent three times, it is answered for ever in a network that neither loses
nor duplicates a datagram. -/
theorem spoofed_answered_for_ever :
    ∃ as, EndlessChain blocking
        (init [.v4 #v[10, 0, 0, 2] 2333, .v4 #v[10, 0, 0, 3] 2333]
          [spoofed, spoofed, spoofed]) as ∧
      ∀ k, (as k).reliable := by
  obtain ⟨es, w, hrun, hes, hunderway⟩ := underway_of_three
    (w := init [.v4 #v[10, 0, 0, 2] 2333, .v4 #v[10, 0, 0, 3] 2333]
      [spoofed, spoofed, spoofed]) (f := spoofed) displaces_blocking (by decide)
    ⟨_, (lookup_init _ _ _).trans (if_pos (by decide)), rfl⟩
    ⟨_, (lookup_init _ _ _).trans (if_pos (by decide)), rfl⟩ nofun
  obtain ⟨as, has, hwhere⟩ :=
    (hunderway.endless displaces_blocking).before hrun
  refine ⟨as, has, ?_⟩
  intro k
  rcases hwhere k with hmem | ⟨n, hn⟩
  · exact hes _ hmem
  · rw [hn]
    exact reliable_exchange n

end ListenerNet

end Rathole
