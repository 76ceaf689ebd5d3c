namespace CanSniffer.Buffers

inductive RingBufferErrorType
  | ok
  | notOk
  | full
  deriving DecidableEq, Repr

structure RingBuffer where
  startAddress : UInt32
  head : UInt32
  tail : UInt32
  bufferLength : UInt32
  elementSize : UInt32
  stride : UInt32
  elementCount : UInt32
  isFull : Bool
  deriving DecidableEq, Repr

abbrev Memory := UInt32 → UInt8

def store (m : Memory) (p size : UInt32) (v : Nat → UInt8) : Memory := fun a =>
  if a - p < size then v (a - p).toNat else m a

def load (m : Memory) (p size : UInt32) : List UInt8 :=
  (List.range size.toNat).map fun i => m (p + UInt32.ofNat i)

namespace RingBuffer

def empty (startAddress bufferLength elementSize stride : UInt32) : RingBuffer where
  startAddress := startAddress
  head := 0
  tail := 0
  bufferLength := bufferLength
  elementSize := elementSize
  stride := stride
  elementCount := 0
  isFull := false

def wrapIndex (index length : UInt32) : UInt32 := index % length

def peek (rb : RingBuffer) : UInt32 := rb.startAddress + rb.head * rb.stride

def count (rb : RingBuffer) : UInt32 :=
  if rb.head = rb.tail then if rb.isFull then rb.bufferLength else 0
  else if rb.tail < rb.head then rb.head - rb.tail
  else rb.bufferLength - (rb.tail - rb.head)

/-- No pointer is `NULL`, here and below. -/
def peekAt (rb : RingBuffer) (pos : UInt32) : Option UInt32 :=
  let used := rb.count
  if used ≤ pos then none
  else if 0 = rb.stride then none
  else
    let phys := (rb.tail + pos) % rb.bufferLength
    some (rb.startAddress + phys * rb.stride)

def reserve (rb : RingBuffer) : Option UInt32 × RingBuffer :=
  if rb.isFull then (none, rb)
  else
    let element := rb.peek
    let elementCount := rb.elementCount + 1
    (some element,
      { rb with
        head := wrapIndex (rb.head + 1) rb.bufferLength
        elementCount := elementCount
        isFull := if elementCount = rb.bufferLength then true else rb.isFull })

def put (rb : RingBuffer) (m : Memory) (v : Nat → UInt8) :
    RingBufferErrorType × RingBuffer × Memory :=
  if rb.isFull then (.full, rb, m)
  else
    let elementCount := rb.elementCount + 1
    (.ok,
      { rb with
        head := wrapIndex (rb.head + 1) rb.bufferLength
        elementCount := elementCount
        isFull := if elementCount = rb.bufferLength then true else rb.isFull },
      store m rb.peek rb.elementSize v)

def popPtr (rb : RingBuffer) : Option UInt32 × RingBuffer :=
  if rb.elementCount = 0 then (none, rb)
  else if 0 = rb.stride then (none, rb)
  else
    (some (rb.startAddress + rb.tail * rb.stride),
      { rb with
        tail := wrapIndex (rb.tail + 1) rb.bufferLength
        elementCount := rb.elementCount - 1
        isFull := false })

def pop (rb : RingBuffer) (m : Memory) : UInt32 × Option (List UInt8) × RingBuffer :=
  if rb.elementCount = 0 then (1, none, rb)
  else if 0 = rb.stride then (1, none, rb)
  else
    (0, some (load m (rb.startAddress + rb.tail * rb.stride) rb.elementSize),
      { rb with
        tail := wrapIndex (rb.tail + 1) rb.bufferLength
        elementCount := rb.elementCount - 1
        isFull := false })

end RingBuffer

/-- The calls, and the owner of a slot writing an element to it. -/
inductive Call
  | put (element : Nat → UInt8)
  | reserve
  | pop
  | popPtr
  | peekAt (pos : UInt32)
  | count
  | write (slot : UInt32) (element : Nat → UInt8)

inductive Result
  | status (res : RingBufferErrorType)
  | pointer (p : Option UInt32)
  | popped (res : UInt32) (element : Option (List UInt8))
  | count (n : UInt32)
  | done

structure State where
  rb : RingBuffer
  mem : Memory

def State.exec (s : State) : Call → State × Result
  | .put v =>
    let (res, rb, mem) := s.rb.put s.mem v
    (⟨rb, mem⟩, .status res)
  | .reserve =>
    let (p, rb) := s.rb.reserve
    (⟨rb, s.mem⟩, .pointer p)
  | .pop =>
    let (res, element, rb) := s.rb.pop s.mem
    (⟨rb, s.mem⟩, .popped res element)
  | .popPtr =>
    let (p, rb) := s.rb.popPtr
    (⟨rb, s.mem⟩, .pointer p)
  | .peekAt pos => (s, .pointer (s.rb.peekAt pos))
  | .count => (s, .count s.rb.count)
  | .write p v => (⟨s.rb, store s.mem p s.rb.elementSize v⟩, .done)

end CanSniffer.Buffers
