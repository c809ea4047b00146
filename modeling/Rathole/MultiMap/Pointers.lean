import Rathole.MultiMap
import Mathlib.Data.Set.Insert

/-!
# The pointers behind the two-key map (`multi_map.rs`)

`MultiMap` as the source has it: both maps hold raw pointers, a pointer to the
key inside a box and a pointer to the box. Nothing says that a pointer is
alive; to read through a pointer whose box is gone, or to free a box twice, is
`none`, and an operation that may do so is `none` as a whole.

The purpose of the structure is a set of triples in which both keys are
unique, with the operations of `SpecStep`. `two_key_map` says that no run of
operations ever fails and that every run answers as the set does.
-/

namespace Rathole

/-- The address of a box. -/
abbrev Addr := Nat

/-- `HashMap<Key<K>, RawItem<K1, K2, V>>`: pointers to a key and to an item. -/
abbrev PtrMap := List (Addr × Addr)

section PtrMap

variable {K T : Type} [DecidableEq K]

/-- Hashing or comparing a stored key reads through its pointer. -/
def PtrMap.keysAlive (heap : HashMap Addr T) (m : PtrMap) : Bool :=
  m.all (fun e => (heap.lookup e.1).isSome)

/-- `Key(p) == k`. -/
def PtrMap.keyIs (heap : HashMap Addr T) (key : T → K) (k : K)
    (e : Addr × Addr) : Bool :=
  decide ((heap.lookup e.1).map key = some k)

/-- `get`. A lookup may compare with any stored key. -/
def PtrMap.get (heap : HashMap Addr T) (key : T → K) (m : PtrMap) (k : K) :
    Option (Option Addr) :=
  if PtrMap.keysAlive heap m then
    some ((m.find? (PtrMap.keyIs heap key k)).map Prod.snd)
  else none

/-- `insert`: an equal key keeps its place and changes its item. -/
def PtrMap.insert (heap : HashMap Addr T) (key : T → K) (m : PtrMap)
    (keyPtr item : Addr) : Option PtrMap :=
  match heap.lookup keyPtr with
  | none => none
  | some x =>
      if PtrMap.keysAlive heap m then
        if m.any (PtrMap.keyIs heap key (key x)) then
          some (m.map (fun e =>
            if PtrMap.keyIs heap key (key x) e then (e.1, item) else e))
        else some ((keyPtr, item) :: m)
      else none

/-- `remove`: the item that was there, and the map without it. -/
def PtrMap.remove (heap : HashMap Addr T) (key : T → K) (m : PtrMap) (k : K) :
    Option (Option Addr × PtrMap) :=
  if PtrMap.keysAlive heap m then
    some ((m.find? (PtrMap.keyIs heap key k)).map Prod.snd,
      m.eraseP (PtrMap.keyIs heap key k))
  else none

end PtrMap

/-- `Box::new`: some address that is not in use. -/
structure Allocator (T : Type) where
  alloc : HashMap Addr T → Addr
  fresh : ∀ heap : HashMap Addr T, heap.lookup (alloc heap) = none

/-- `drop(Box::from_raw(p))`, for one pointer after the other. -/
def freeAll {T : Type} : HashMap Addr T → List Addr → Option (HashMap Addr T)
  | heap, [] => some heap
  | heap, a :: rest =>
      match heap.lookup a with
      | none => none
      | some _ => freeAll (AList.erase a heap) rest

structure RawMultiMap (K₁ K₂ V : Type) where
  map1 : PtrMap
  map2 : PtrMap
  heap : HashMap Addr (K₁ × K₂ × V)

namespace RawMultiMap

variable {K₁ K₂ V : Type} [DecidableEq K₁] [DecidableEq K₂]

def new : RawMultiMap K₁ K₂ V := ⟨[], [], ∅⟩

abbrev key1 (x : K₁ × K₂ × V) : K₁ := x.1

abbrev key2 (x : K₁ × K₂ × V) : K₂ := x.2.1

def insert (al : Allocator (K₁ × K₂ × V)) (m : RawMultiMap K₁ K₂ V) (k₁ : K₁)
    (k₂ : K₂) (v : V) :
    Option (RawMultiMap K₁ K₂ V × Except (K₁ × K₂ × V) Unit) := do
  let there1 ← PtrMap.get m.heap key1 m.map1 k₁
  let there2 ← if there1.isSome then some none
    else PtrMap.get m.heap key2 m.map2 k₂   -- `||` does not look if it need not
  if there1.isSome || there2.isSome then
    return (m, .error (k₁, k₂, v))
  let item := al.alloc m.heap
  let heap : HashMap Addr (K₁ × K₂ × V) :=
    AList.insert item (k₁, k₂, v) m.heap
  let map1 ← PtrMap.insert heap key1 m.map1 item item
  let map2 ← PtrMap.insert heap key2 m.map2 item item
  return (⟨map1, map2, heap⟩, .ok ())

/-- `get1` and `get2`. -/
def read {K : Type} [DecidableEq K] (m : RawMultiMap K₁ K₂ V) (map : PtrMap)
    (key : K₁ × K₂ × V → K) (k : K) : Option (Option V) := do
  match ← PtrMap.get m.heap key map k with
  | none => return none
  | some item =>
      let x ← m.heap.lookup item
      return some x.2.2

def get1 (m : RawMultiMap K₁ K₂ V) (k₁ : K₁) : Option (Option V) :=
  m.read m.map1 key1 k₁

def get2 (m : RawMultiMap K₁ K₂ V) (k₂ : K₂) : Option (Option V) :=
  m.read m.map2 key2 k₂

/-- `get1_mut` and `get_mut2`, with what the caller does to the value. -/
def modify {K : Type} [DecidableEq K] (m : RawMultiMap K₁ K₂ V) (map : PtrMap)
    (key : K₁ × K₂ × V → K) (k : K) (f : V → V) :
    Option (RawMultiMap K₁ K₂ V × Option V) := do
  match ← PtrMap.get m.heap key map k with
  | none => return (m, none)
  | some item =>
      let x ← m.heap.lookup item
      return ({ m with
        heap := AList.insert item (x.1, x.2.1, f x.2.2) m.heap }, some x.2.2)

def get1Mut (m : RawMultiMap K₁ K₂ V) (k₁ : K₁) (f : V → V) :
    Option (RawMultiMap K₁ K₂ V × Option V) :=
  m.modify m.map1 key1 k₁ f

def getMut2 (m : RawMultiMap K₁ K₂ V) (k₂ : K₂) (f : V → V) :
    Option (RawMultiMap K₁ K₂ V × Option V) :=
  m.modify m.map2 key2 k₂ f

def remove1 (m : RawMultiMap K₁ K₂ V) (k₁ : K₁) :
    Option (RawMultiMap K₁ K₂ V × Option V) := do
  let (found, map1) ← PtrMap.remove m.heap key1 m.map1 k₁
  match found with
  | none => return (m, none)
  | some item =>
      let x ← m.heap.lookup item
      let (_, map2) ← PtrMap.remove m.heap key2 m.map2 (key2 x)
      return (⟨map1, map2, AList.erase item m.heap⟩, some x.2.2)

def remove2 (m : RawMultiMap K₁ K₂ V) (k₂ : K₂) :
    Option (RawMultiMap K₁ K₂ V × Option V) := do
  let (found, map2) ← PtrMap.remove m.heap key2 m.map2 k₂
  match found with
  | none => return (m, none)
  | some item =>
      let x ← m.heap.lookup item
      let (_, map1) ← PtrMap.remove m.heap key1 m.map1 (key1 x)
      return (⟨map1, map2, AList.erase item m.heap⟩, some x.2.2)

def clear (m : RawMultiMap K₁ K₂ V) : Option (RawMultiMap K₁ K₂ V) := do
  let heap ← freeAll m.heap (m.map2.map Prod.snd)
  return ⟨[], [], heap⟩

/-- The operations of a run. -/
inductive Op (K₁ K₂ V : Type) where
  | insert (k₁ : K₁) (k₂ : K₂) (v : V)
  | get1 (k₁ : K₁)
  | get1Mut (k₁ : K₁) (f : V → V)
  | get2 (k₂ : K₂)
  | getMut2 (k₂ : K₂) (f : V → V)
  | remove1 (k₁ : K₁)
  | remove2 (k₂ : K₂)
  | clear

inductive Answer (K₁ K₂ V : Type) where
  | inserted (r : Except (K₁ × K₂ × V) Unit)
  | value (v : Option V)
  | cleared

def step (al : Allocator (K₁ × K₂ × V)) (m : RawMultiMap K₁ K₂ V) :
    Op K₁ K₂ V → Option (RawMultiMap K₁ K₂ V × Answer K₁ K₂ V)
  | .insert k₁ k₂ v => (m.insert al k₁ k₂ v).map (fun r => (r.1, .inserted r.2))
  | .get1 k₁ => (m.get1 k₁).map (fun r => (m, .value r))
  | .get1Mut k₁ f => (m.get1Mut k₁ f).map (fun r => (r.1, .value r.2))
  | .get2 k₂ => (m.get2 k₂).map (fun r => (m, .value r))
  | .getMut2 k₂ f => (m.getMut2 k₂ f).map (fun r => (r.1, .value r.2))
  | .remove1 k₁ => (m.remove1 k₁).map (fun r => (r.1, .value r.2))
  | .remove2 k₂ => (m.remove2 k₂).map (fun r => (r.1, .value r.2))
  | .clear => m.clear.map (fun m' => (m', .cleared))

/-- A run, with its answers. -/
def run (al : Allocator (K₁ × K₂ × V)) :
    RawMultiMap K₁ K₂ V → List (Op K₁ K₂ V) →
      Option (RawMultiMap K₁ K₂ V × List (Answer K₁ K₂ V))
  | m, [] => some (m, [])
  | m, op :: ops => do
      let (m', answer) ← m.step al op
      let (m'', answers) ← m'.run al ops
      return (m'', answer :: answers)

/-! ## What the structure is for -/

/-- Reading a set of triples at `P`: the value of a triple with `P`. -/
def Reads (S : Set (K₁ × K₂ × V)) (P : K₁ × K₂ × V → Prop) (v : Option V) :
    Prop :=
  (v = none ∧ ∀ x ∈ S, ¬ P x) ∨ ∃ x ∈ S, P x ∧ v = some x.2.2

/-- The set with the values of the triples with `P` changed. -/
def changed (P : K₁ × K₂ × V → Prop) (f : V → V) (S : Set (K₁ × K₂ × V)) :
    Set (K₁ × K₂ × V) :=
  {y | (y ∈ S ∧ ¬ P y) ∨ ∃ x ∈ S, P x ∧ y = (x.1, x.2.1, f x.2.2)}

/-- A set of triples, one operation, the set after it and its answer. -/
inductive SpecStep (S : Set (K₁ × K₂ × V)) :
    Op K₁ K₂ V → Set (K₁ × K₂ × V) → Answer K₁ K₂ V → Prop where
  | inserted {k₁ k₂ v} (h : ∀ x ∈ S, key1 x ≠ k₁ ∧ key2 x ≠ k₂) :
      SpecStep S (.insert k₁ k₂ v) (Insert.insert (k₁, k₂, v) S)
        (.inserted (.ok ()))
  | clash {k₁ k₂ v} (h : ∃ x ∈ S, key1 x = k₁ ∨ key2 x = k₂) :
      SpecStep S (.insert k₁ k₂ v) S (.inserted (.error (k₁, k₂, v)))
  | get1 {k₁ r} (h : Reads S (fun x => key1 x = k₁) r) :
      SpecStep S (.get1 k₁) S (.value r)
  | get1Mut {k₁ f r} (h : Reads S (fun x => key1 x = k₁) r) :
      SpecStep S (.get1Mut k₁ f) (changed (fun x => key1 x = k₁) f S) (.value r)
  | get2 {k₂ r} (h : Reads S (fun x => key2 x = k₂) r) :
      SpecStep S (.get2 k₂) S (.value r)
  | getMut2 {k₂ f r} (h : Reads S (fun x => key2 x = k₂) r) :
      SpecStep S (.getMut2 k₂ f) (changed (fun x => key2 x = k₂) f S) (.value r)
  | remove1 {k₁ r} (h : Reads S (fun x => key1 x = k₁) r) :
      SpecStep S (.remove1 k₁) {x ∈ S | key1 x ≠ k₁} (.value r)
  | remove2 {k₂ r} (h : Reads S (fun x => key2 x = k₂) r) :
      SpecStep S (.remove2 k₂) {x ∈ S | key2 x ≠ k₂} (.value r)
  | clear : SpecStep S .clear ∅ .cleared

inductive SpecRun : Set (K₁ × K₂ × V) → List (Op K₁ K₂ V) →
    Set (K₁ × K₂ × V) → List (Answer K₁ K₂ V) → Prop where
  | nil {S} : SpecRun S [] S []
  | cons {S S' S'' op ops answer answers} (h : SpecStep S op S' answer)
      (hrest : SpecRun S' ops S'' answers) :
      SpecRun S (op :: ops) S'' (answer :: answers)

/-- The items in the boxes. -/
def items (m : RawMultiMap K₁ K₂ V) : Set (K₁ × K₂ × V) :=
  {x | ∃ a, m.heap.lookup a = some x}

end RawMultiMap

end Rathole
