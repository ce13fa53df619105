import Mathlib.Algebra.Order.Ring.Int

/-!
# Instance ids

The map manager marks the ids in use in a `vector<bool>`, and keeps the id that the next instance
gets. `inUse` tells which ids really are in use, `outOfBounds` that the vector was accessed outside
its size, and `clashed` that an id was handed out that was in use, or 0.
-/

namespace Sky548

/-- What the standard library promises of `vector<bool>`: the capacity it takes when it has `size`
elements and is to hold `wanted` is enough. -/
structure Allocation where
  grow : Nat → Nat → Nat
  enough : ∀ size wanted, wanted ≤ grow size wanted

def resizeBits (bits : List Bool) (size : Nat) : List Bool :=
  bits.take size ++ List.replicate (size - bits.length) false

/-- The size that `InitInstanceIds` and `GenerateInstanceId` compute, as a `uint32` -/
def sizeFor (id : Nat) : Nat := (id / 32 * 32 + if id % 32 > 0 then 32 else 0) % 2 ^ 32

/-- The first id from `i` on that is not marked, among `room` many -/
def firstFree (bits : List Bool) : Nat → Nat → Option Nat
  | 0, _ => none
  | room + 1, i =>
    if (i < bits.length && !bits.getD i false) || i ≥ bits.length then some i
    else firstFree bits room (i + 1)

structure MapManager where
  instanceIds : List Bool
  capacity : Nat
  nextInstanceId : Nat
  /-- The server is told to stop. -/
  stopping : Bool
  inUse : Nat → Bool
  outOfBounds : Bool
  clashed : Bool

namespace MapManager

variable (allocation : Allocation) (s : MapManager)

def size : Nat := s.instanceIds.length

def resize (size : Nat) : MapManager :=
  { s with
    instanceIds := resizeBits s.instanceIds size
    capacity := if size ≤ s.capacity then s.capacity else allocation.grow s.size size }

def mark (instanceId : Nat) (used : Bool) : MapManager :=
  { s with
    instanceIds := s.instanceIds.set instanceId used
    outOfBounds := s.outOfBounds || s.size ≤ instanceId }

/-- `InitInstanceIds`, where `MAX(id)` of no rows is read as 0 -/
def initInstanceIds (ids : List Nat) : MapManager :=
  let s : MapManager :=
    { instanceIds := []
      capacity := 0
      nextInstanceId := 1
      stopping := false
      inUse := fun _ => false
      outOfBounds := false
      clashed := false }
  s.resize allocation (sizeFor (ids.foldr max 0))

def registerInstanceId (instanceId : Nat) : MapManager :=
  { s.mark instanceId true with
    inUse := Function.update s.inUse instanceId true }

/-- What `LoadResetTimes` does with the id of a row -/
def loadRow (instanceId : Nat) : MapManager :=
  let s :=
    if s.nextInstanceId = instanceId then { s with nextInstanceId := (instanceId + 1) % 2 ^ 32 }
    else s
  s.registerInstanceId instanceId

/-- The loop of `GenerateInstanceId` -/
def findNext : MapManager :=
  let start := (s.nextInstanceId + 1) % 2 ^ 32
  { s with nextInstanceId := (firstFree s.instanceIds (0xFFFFFFFF - start) start).getD start }

def allocate (newInstanceId : Nat) : MapManager :=
  if newInstanceId ≥ s.size % 2 ^ 32 then
    if s.size < s.capacity then s.resize allocation s.capacity
    else s.resize allocation (sizeFor newInstanceId)
  else s

def generateInstanceId : MapManager × Nat :=
  let newInstanceId := s.nextInstanceId
  let s' := s.findNext
  let s' := { s' with stopping := s'.stopping || newInstanceId == s'.nextInstanceId }
  let s' := (s'.allocate allocation newInstanceId).mark newInstanceId true
  ({ s' with
      inUse := Function.update s.inUse newInstanceId true
      clashed := s.clashed || newInstanceId == 0 || s.inUse newInstanceId }, newInstanceId)

def freeInstanceId (instanceId : Nat) : MapManager :=
  let s := if instanceId < s.nextInstanceId then { s with nextInstanceId := instanceId } else s
  { s.mark instanceId false with
    inUse := Function.update s.inUse instanceId false }

inductive Request
  | generate
  | free (instanceId : Nat)

/-- **One step** once all is loaded. Only an id that is in use is freed. -/
def step : Request → MapManager
  | .generate => (s.generateInstanceId allocation).1
  | .free instanceId => if s.inUse instanceId then s.freeInstanceId instanceId else s

end MapManager

end Sky548
