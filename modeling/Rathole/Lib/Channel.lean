import Rathole.Lib.Runs

/-!
# Channels

What a connection is to those who use it: messages go in at one end and come
out at the other, first in, first out, none lost and none made up. A channel
remembers everything that was ever sent and received on it, so that a protocol
can be stated over its history.
-/

structure Channel (α : Type*) where
  sent : List α
  received : List α
deriving DecidableEq

namespace Channel

variable {α : Type*}

def empty : Channel α := ⟨[], []⟩

def send (c : Channel α) (as : List α) : Channel α :=
  { c with sent := c.sent ++ as }

/-- The message that is received next. -/
def next? (c : Channel α) : Option α := c.sent[c.received.length]?

def receive (c : Channel α) (a : α) : Channel α :=
  { c with received := c.received ++ [a] }

inductive Op (α : Type*) where
  | send (a : α)
  | receive
deriving DecidableEq

def step (c : Channel α) : Op α → Option (Channel α)
  | .send a => some (c.send [a])
  | .receive => c.next?.map c.receive

/-- First in, first out. -/
def Fifo (c : Channel α) : Prop := c.received <+: c.sent

theorem fifo_empty : (empty : Channel α).Fifo := List.prefix_refl []

theorem Fifo.send {c : Channel α} (h : c.Fifo) (as : List α) :
    (c.send as).Fifo :=
  h.trans (List.prefix_append _ _)

theorem Fifo.receive {c : Channel α} (h : c.Fifo) {a : α}
    (hnext : c.next? = some a) : (c.receive a).Fifo := by
  obtain ⟨rest, hrest⟩ := h
  unfold next? at hnext
  rw [← hrest, List.getElem?_append_right (Nat.le_refl _),
    Nat.sub_self] at hnext
  rcases rest with - | ⟨b, tail⟩
  · cases hnext
  · cases hnext
    refine ⟨tail, ?_⟩
    show c.received ++ [a] ++ tail = c.sent
    rw [← hrest, List.append_assoc]
    rfl

theorem fifo_step {c c' : Channel α} {op : Op α} (h : c.Fifo)
    (hs : c.step op = some c') : c'.Fifo := by
  cases op with
  | send a =>
      cases hs
      exact h.send [a]
  | receive =>
      obtain ⟨a, ha, rfl⟩ := Option.map_eq_some_iff.mp hs
      exact h.receive ha

/-- **Every channel is first in, first out.** -/
theorem fifo_reaches {c : Channel α} (h : Runs.Reaches step empty c) :
    c.Fifo :=
  h.preserves (fun _ _ _ hf hs => fifo_step hf hs) fifo_empty

end Channel
