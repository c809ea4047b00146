import Rathole.Lib.Channel

/-!
# Relays

A pipe is a channel whose writer may close it, and whose reader is told so
once everything is read. A relay copies one pipe to another in pieces of any
size, and closes the other when it has passed on everything. It may pass over
what was read from its source before, and something may have been put in front
of what it writes.

What comes out of a chain of relays is a prefix of what went in. The end comes
out only after all of it, and when the relays are at rest all of it has come
out.
-/

structure Pipe (α : Type*) extends Channel α where
  closed : Bool
  /-- The reader has been told the end. -/
  ended : Bool
deriving DecidableEq

namespace Pipe

variable {α : Type*}

def empty : Pipe α := ⟨.empty, false, false⟩

def unread (p : Pipe α) : List α := p.sent.drop p.received.length

def write (p : Pipe α) (as : List α) : Pipe α :=
  { p with sent := p.sent ++ as }

def take (p : Pipe α) (n : ℕ) : Pipe α :=
  { p with received := p.received ++ p.unread.take n }

def close (p : Pipe α) : Pipe α := { p with closed := true }

def finish (p : Pipe α) : Pipe α := { p with ended := true }

/-- A pipe that is used as it should be. -/
structure Ok (p : Pipe α) : Prop where
  fifo : p.Fifo
  ended : p.ended = true → p.closed = true ∧ p.received = p.sent

variable {p : Pipe α}

theorem ok_empty : (empty : Pipe α).Ok :=
  ⟨Channel.fifo_empty, fun h => by cases h⟩

theorem Ok.unread (h : p.Ok) : p.received ++ p.unread = p.sent := by
  obtain ⟨rest, hrest⟩ := h.fifo
  unfold Pipe.unread
  rw [← hrest, List.drop_left]

theorem Ok.received_eq (h : p.Ok) (hnil : p.unread = []) :
    p.received = p.sent := by
  rw [← h.unread, hnil, List.append_nil]

theorem Ok.write (h : p.Ok) (hopen : p.closed = false) (as : List α) :
    (p.write as).Ok where
  fifo := h.fifo.trans (List.prefix_append _ _)
  ended hend := by
    rw [(h.ended hend).1] at hopen
    cases hopen

theorem Ok.take (h : p.Ok) (n : ℕ) : (p.take n).Ok := by
  have hpre : p.received ++ p.unread.take n <+: p.sent := by
    conv_rhs => rw [← h.unread]
    exact (List.prefix_append_right_inj _).mpr (List.take_prefix n _)
  refine ⟨hpre, fun hend => ⟨(h.ended hend).1, ?_⟩⟩
  -- there is nothing left to take
  have hall := (h.ended hend).2
  refine hpre.eq_of_length_le ?_
  rw [← hall, List.length_append]
  omega

theorem Ok.close (h : p.Ok) : p.close.Ok where
  fifo := h.fifo
  ended hend := ⟨rfl, (h.ended hend).2⟩

theorem Ok.finish (h : p.Ok) (hclosed : p.closed = true)
    (hnil : p.unread = []) : p.finish.Ok where
  fifo := h.fifo
  ended _ := ⟨hclosed, h.received_eq hnil⟩

/-! ## Whoever is at the other ends -/

/-- What somebody does who writes to one pipe and reads from another. -/
inductive Use (α : Type*) where
  | write (as : List α)
  | close
  | read (n : ℕ)
  | finish
deriving DecidableEq

def use (out inp : Pipe α) : Use α → Option (Pipe α × Pipe α)
  | .write as => if out.closed then none else some (out.write as, inp)
  | .close => if out.closed then none else some (out.close, inp)
  | .read n => some (out, inp.take n)
  | .finish =>
      if inp.closed = true ∧ inp.unread = [] then some (out, inp.finish)
      else none

structure Used (out out' inp inp' : Pipe α) : Prop where
  outOk : out.Ok → out'.Ok
  inOk : inp.Ok → inp'.Ok
  outReceived : out'.received = out.received
  outEnded : out'.ended = out.ended
  inSent : inp'.sent = inp.sent
  inClosed : inp'.closed = inp.closed

theorem use_spec {out out' inp inp' : Pipe α} {u : Use α}
    (hs : use out inp u = some (out', inp')) : Used out out' inp inp' := by
  cases u with
  | write as =>
      simp only [use] at hs
      split at hs
      · cases hs
      · rename_i hopen
        cases hs
        exact ⟨fun hok => hok.write (Bool.not_eq_true _ ▸ hopen) as, id, rfl,
          rfl, rfl, rfl⟩
  | close =>
      simp only [use] at hs
      split at hs
      · cases hs
      · cases hs
        exact ⟨Ok.close, id, rfl, rfl, rfl, rfl⟩
  | read n =>
      cases hs
      exact ⟨id, fun hok => hok.take n, rfl, rfl, rfl, rfl⟩
  | finish =>
      simp only [use] at hs
      split at hs
      · rename_i hcond
        cases hs
        exact ⟨id, fun hok => hok.finish hcond.1 hcond.2, rfl, rfl, rfl, rfl⟩
      · cases hs

end Pipe

/-- One direction of a copy: what is read and not yet written, whether the
source has ended, and whether the destination was closed for it. -/
structure Relay (α : Type*) where
  buf : List α
  eof : Bool
  done : Bool
deriving DecidableEq

namespace Relay

variable {α : Type*}

def start : Relay α := ⟨[], false, false⟩

inductive Op where
  | read (n : ℕ)
  | write (n : ℕ)
  | eof
  | shutdown
deriving DecidableEq

def step (src : Pipe α) (r : Relay α) (dst : Pipe α) :
    Op → Option (Pipe α × Relay α × Pipe α)
  | .read n =>
      if 0 < n ∧ n ≤ src.unread.length ∧ r.eof = false then
        some (src.take n, { r with buf := r.buf ++ src.unread.take n }, dst)
      else none
  | .write n =>
      if 0 < n ∧ n ≤ r.buf.length ∧ r.done = false then
        some (src, { r with buf := r.buf.drop n }, dst.write (r.buf.take n))
      else none
  | .eof =>
      if src.closed = true ∧ src.unread = [] ∧ r.eof = false then
        some (src.finish, { r with eof := true }, dst)
      else none
  | .shutdown =>
      if r.eof = true ∧ r.buf = [] ∧ r.done = false then
        some (src, { r with done := true }, dst.close)
      else none

/-- A relay at work: `skip` was read from the source before, and `pre` was
written in front. -/
structure Carries (skip pre : List α) (src : Pipe α) (r : Relay α)
    (dst : Pipe α) : Prop where
  moved : ∃ moved, src.received = skip ++ moved ++ r.buf ∧
    dst.sent = pre ++ moved
  eof : r.eof = src.ended
  done : r.done = true → r.eof = true ∧ r.buf = []
  closed : dst.closed = r.done

/-- What is left of it when the relay is gone. -/
def Carried (skip pre : List α) (src dst : Pipe α) : Prop :=
  ∃ moved, skip ++ moved <+: src.received ∧ dst.sent = pre ++ moved

variable {skip pre : List α} {src src' dst dst' : Pipe α} {r r' : Relay α}

theorem carries_start (hrecv : src.received = skip) (hend : src.ended = false)
    (hsent : dst.sent = pre) (hopen : dst.closed = false) :
    Carries skip pre src start dst where
  moved := ⟨[], by rw [hrecv, start, List.append_nil, List.append_nil],
    by rw [hsent, List.append_nil]⟩
  eof := hend.symm
  done h := by cases h
  closed := hopen

theorem Carries.carried (h : Carries skip pre src r dst) :
    Carried skip pre src dst := by
  obtain ⟨moved, hrecv, hsent⟩ := h.moved
  exact ⟨moved, hrecv ▸ List.prefix_append _ _, hsent⟩

/-- The source is written to, and the destination is read from. -/
theorem Carries.congr (h : Carries skip pre src r dst)
    (hrecv : src'.received = src.received) (hend : src'.ended = src.ended)
    (hsent : dst'.sent = dst.sent) (hclosed : dst'.closed = dst.closed) :
    Carries skip pre src' r dst' where
  moved := by
    rw [hrecv, hsent]
    exact h.moved
  eof := h.eof.trans hend.symm
  done := h.done
  closed := hclosed.trans h.closed

theorem Carried.congr (h : Carried skip pre src dst)
    (hrecv : src.received <+: src'.received) (hsent : dst'.sent = dst.sent) :
    Carried skip pre src' dst' := by
  obtain ⟨moved, hmoved, hdst⟩ := h
  exact ⟨moved, hmoved.trans hrecv, hsent.trans hdst⟩

/-- What a step does to the pipes: it reads from the source, and writes to the
destination unless that was closed. -/
structure Touches (src src' dst dst' : Pipe α) : Prop where
  srcOk : src.Ok → src'.Ok
  dstOk : dst.Ok → dst'.Ok
  srcSent : src'.sent = src.sent
  srcClosed : src'.closed = src.closed
  dstReceived : dst'.received = dst.received
  dstEnded : dst'.ended = dst.ended
  grows : src.received <+: src'.received

/-- **Step lemma.** -/
theorem step_spec {op : Op} (h : Carries skip pre src r dst)
    (hs : step src r dst op = some (src', r', dst')) :
    Carries skip pre src' r' dst' ∧ Touches src src' dst dst' := by
  obtain ⟨moved, hrecv, hsent⟩ := h.moved
  cases op with
  | read n =>
      simp only [step] at hs
      split at hs
      · rename_i hcond
        cases hs
        refine ⟨⟨⟨moved, ?_, hsent⟩, h.eof, ?_, h.closed⟩,
          ⟨fun hok => hok.take n, id, rfl, rfl, rfl, rfl,
            List.prefix_append _ _⟩⟩
        · show src.received ++ src.unread.take n = _
          rw [hrecv, List.append_assoc (skip ++ moved)]
        · intro hdone
          rw [(h.done hdone).1] at hcond
          cases hcond.2.2
      · cases hs
  | write n =>
      simp only [step] at hs
      split at hs
      · rename_i hcond
        cases hs
        refine ⟨⟨⟨moved ++ r.buf.take n, ?_, ?_⟩, h.eof, ?_, h.closed⟩,
          ⟨id, fun hok => hok.write (h.closed.trans hcond.2.2) _, rfl, rfl,
            rfl, rfl, List.prefix_refl _⟩⟩
        · rw [hrecv, List.append_assoc, List.append_assoc, List.append_assoc,
            List.take_append_drop]
        · show dst.sent ++ r.buf.take n = _
          rw [hsent, List.append_assoc]
        · intro hdone
          rw [hcond.2.2] at hdone
          cases hdone
      · cases hs
  | eof =>
      simp only [step] at hs
      split at hs
      · rename_i hcond
        cases hs
        refine ⟨⟨⟨moved, hrecv, hsent⟩, rfl, ?_, h.closed⟩,
          ⟨fun hok => hok.finish hcond.1 hcond.2.1, id, rfl, rfl, rfl, rfl,
            List.prefix_refl _⟩⟩
        exact fun hdone => ⟨rfl, (h.done hdone).2⟩
      · cases hs
  | shutdown =>
      simp only [step] at hs
      split at hs
      · rename_i hcond
        cases hs
        exact ⟨⟨⟨moved, hrecv, hsent⟩, h.eof, fun _ => ⟨hcond.1, hcond.2.1⟩,
            rfl⟩,
          ⟨id, Pipe.Ok.close, rfl, rfl, rfl, rfl, List.prefix_refl _⟩⟩
      · cases hs

/-! ## Rest -/

def AtRest (src : Pipe α) (r : Relay α) (dst : Pipe α) : Prop :=
  ∀ op, step src r dst op = none

/-- A relay at rest has passed on everything, and the end if there is one. -/
theorem Carries.rest (h : Carries skip pre src r dst) (hok : src.Ok)
    (hrest : AtRest src r dst) :
    dst.sent = pre ++ src.sent.drop skip.length ∧
      skip <+: src.sent ∧ dst.closed = src.closed := by
  obtain ⟨moved, hrecv, hsent⟩ := h.moved
  have hall : src.received = src.sent := by
    cases heof : r.eof with
    | true => exact (hok.ended (h.eof ▸ heof)).2
    | false =>
        apply hok.received_eq
        by_contra hne
        have hread := hrest (.read 1)
        have hlen : 1 ≤ src.unread.length := List.length_pos_of_ne_nil hne
        simp [step, hlen, heof] at hread
  have hbuf : r.buf = [] := by
    cases hdone : r.done with
    | true => exact (h.done hdone).2
    | false =>
        by_contra hne
        have hwrite := hrest (.write 1)
        have hlen : 1 ≤ r.buf.length := List.length_pos_of_ne_nil hne
        simp [step, hlen, hdone] at hwrite
  rw [hall, hbuf, List.append_nil] at hrecv
  refine ⟨?_, ?_, ?_⟩
  · rw [hrecv, List.drop_left, hsent]
  · exact hrecv ▸ List.prefix_append _ _
  · rw [h.closed]
    cases hclosed : src.closed with
    | true =>
        have hnil : src.unread = [] := by
          unfold Pipe.unread
          rw [hall, List.drop_length]
        have heof : r.eof = true := by
          by_contra hno
          have hend := hrest .eof
          simp [step, hclosed, hnil, hno] at hend
        by_contra hno
        have hshut := hrest .shutdown
        simp [step, heof, hbuf, hno] at hshut
    | false =>
        by_contra hdone
        have hend := (h.done (Bool.not_eq_false _ ▸ hdone)).1
        rw [h.eof] at hend
        rw [(hok.ended hend).1] at hclosed
        cases hclosed

/-! ## Chains -/

variable {a b c : Pipe α} {r₁ r₂ : Relay α} {front head : List α}

/-- **What comes out has gone in.** -/
theorem Carried.chain (h₁ : Carried [] front a b) (h₂ : Carried front head b c)
    (ha : a.Ok) (hb : b.Ok) (hc : c.Ok) : c.received <+: head ++ a.sent := by
  obtain ⟨moved₁, hread, hsent₁⟩ := h₁
  obtain ⟨moved₂, hread₂, hsent₂⟩ := h₂
  have hmoved : moved₂ <+: moved₁ := by
    have hpre := hread₂.trans hb.fifo
    rw [hsent₁] at hpre
    exact (List.prefix_append_right_inj _).mp hpre
  have hsent : c.sent <+: head ++ a.sent := by
    rw [hsent₂, List.prefix_append_right_inj]
    exact hmoved.trans (hread.trans ha.fifo)
  exact hc.fifo.trans hsent

/-- **The end comes last.** -/
theorem Carries.chain_ended (h₁ : Carries [] front a r₁ b)
    (h₂ : Carries front head b r₂ c) (ha : a.Ok) (hb : b.Ok) (hc : c.Ok)
    (hend : c.ended = true) :
    a.closed = true ∧ c.received = head ++ a.sent := by
  obtain ⟨moved₁, hread₁, hsent₁⟩ := h₁.moved
  obtain ⟨moved₂, hread₂, hsent₂⟩ := h₂.moved
  obtain ⟨hclosed, hall⟩ := hc.ended hend
  obtain ⟨heof₂, hbuf₂⟩ := h₂.done (h₂.closed ▸ hclosed)
  obtain ⟨hclosed₂, hall₂⟩ := hb.ended (h₂.eof ▸ heof₂)
  obtain ⟨heof₁, hbuf₁⟩ := h₁.done (h₁.closed ▸ hclosed₂)
  obtain ⟨hclosed₁, hall₁⟩ := ha.ended (h₁.eof ▸ heof₁)
  refine ⟨hclosed₁, ?_⟩
  rw [hall₂, hsent₁, hbuf₂, List.append_nil] at hread₂
  have hmoved := List.append_cancel_left hread₂
  rw [hbuf₁, List.append_nil, List.nil_append, hall₁] at hread₁
  rw [hall, hsent₂, ← hmoved, hread₁]

/-- **At rest all has come out.** -/
theorem Carries.chain_rest (h₁ : Carries [] front a r₁ b)
    (h₂ : Carries front head b r₂ c) (ha : a.Ok) (hb : b.Ok)
    (hrest₁ : AtRest a r₁ b) (hrest₂ : AtRest b r₂ c) :
    c.sent = head ++ a.sent ∧ c.closed = a.closed := by
  obtain ⟨hsent₁, -, hclosed₁⟩ := h₁.rest ha hrest₁
  obtain ⟨hsent₂, -, hclosed₂⟩ := h₂.rest hb hrest₂
  rw [hsent₁, List.drop_left] at hsent₂
  exact ⟨hsent₂, hclosed₂.trans hclosed₁⟩

end Relay
