import CanSniffer.Lib.Mailbox

/-! Frames on their way from the bridge task to the logger (`fdcan_msg_port.c`):
they are gathered into pages, and pages go through a FreeRTOS message buffer. -/

universe u

namespace CanSniffer.Ports

open Lib

def canFrameBufferElementsCount : Nat := 150
def canFramePageMaxEntries : Nat := 10

structure PageType (φ : Type u) where
  count : Nat
  frames : Vector φ canFramePageMaxEntries
  count_le : count ≤ canFramePageMaxEntries

namespace PageType

variable {φ : Type u}

def entries (p : PageType φ) : List φ := p.frames.toList.take p.count

def clear (p : PageType φ) : PageType φ where
  count := 0
  frames := p.frames
  count_le := Nat.zero_le _

def addEntryToPage (p : PageType φ) (frame : φ) (h : p.count < canFramePageMaxEntries) :
    PageType φ where
  count := p.count + 1
  frames := p.frames.set p.count frame h
  count_le := h

theorem count_clear_lt (p : PageType φ) : p.clear.count < canFramePageMaxEntries :=
  Nat.succ_pos _

@[simp] theorem entries_clear (p : PageType φ) : p.clear.entries = [] := rfl

@[simp] theorem length_entries (p : PageType φ) : p.entries.length = p.count := by
  simp [entries, p.count_le]

@[simp] theorem entries_addEntryToPage (p : PageType φ) (frame : φ) (h) :
    (p.addEntryToPage frame h).entries = p.entries ++ [frame] := by
  simp [entries, addEntryToPage, List.take_succ_eq_append_getElem, h, Vector.toList_set,
    List.take_set_of_le]

theorem drop_entries (p : PageType φ) (h : i < p.count) :
    p.entries.drop i =
      p.frames.get ⟨i, Nat.lt_of_lt_of_le h p.count_le⟩ :: p.entries.drop (i + 1) := by
  rw [List.drop_eq_getElem_cons (by simpa using h)]
  simp [entries]
  rfl

end PageType

/-- The file's static variables; `n` pages fit into the message buffer. -/
structure FdcanMsgPort (φ : Type u) (n : Nat) where
  canFrameBuffer : Mailbox (PageType φ) n
  pageReceive : PageType φ
  pageRead : PageType φ
  indexRead : Nat
  frameDropCount : Nat
  index_le : indexRead ≤ pageRead.count

namespace FdcanMsgPort

variable {φ : Type u} {n : Nat}

def unread (p : FdcanMsgPort φ n) : List φ :=
  p.pageRead.entries.drop (p.pageRead.count - p.indexRead)

def queued (p : FdcanMsgPort φ n) : List φ := p.canFrameBuffer.items.flatMap PageType.entries

def inFlight (p : FdcanMsgPort φ n) : List φ := p.unread ++ p.queued ++ p.pageReceive.entries

/-- The static variables as the program starts; `zero` is a cleared frame. -/
def boot (zero : φ) : FdcanMsgPort φ n where
  canFrameBuffer := .empty
  pageReceive := ⟨0, .replicate _ zero, Nat.zero_le _⟩
  pageRead := ⟨0, .replicate _ zero, Nat.zero_le _⟩
  indexRead := 0
  frameDropCount := 0
  index_le := Nat.le_refl _

def init (p : FdcanMsgPort φ n) : FdcanMsgPort φ n :=
  { p with frameDropCount := 0, canFrameBuffer := .empty }

def receive (p : FdcanMsgPort φ n) (frame : φ) : FdcanMsgPort φ n :=
  if h : p.pageReceive.count < canFramePageMaxEntries then
    { p with pageReceive := p.pageReceive.addEntryToPage frame h }
  else
    match p.canFrameBuffer.send p.pageReceive with
    | some canFrameBuffer =>
      { p with
        canFrameBuffer
        pageReceive := p.pageReceive.clear.addEntryToPage frame p.pageReceive.count_clear_lt }
    | none => { p with frameDropCount := p.frameDropCount + 1 }

/-- What `read` returns: whether bytes were received, and where `dst` then points. -/
structure ReadResult (φ : Type u) where
  received : Bool
  dst : Option φ

def handOut (p : FdcanMsgPort φ n) (received : Bool) : FdcanMsgPort φ n × ReadResult φ :=
  if h : 0 < p.indexRead then
    have hlt : p.pageRead.count - p.indexRead < canFramePageMaxEntries := by
      have := p.index_le
      have := p.pageRead.count_le
      omega
    ({ p with
      indexRead := p.indexRead - 1
      index_le := Nat.le_trans (Nat.sub_le ..) p.index_le },
      ⟨true, some (p.pageRead.frames.get ⟨p.pageRead.count - p.indexRead, hlt⟩)⟩)
  else (p, ⟨received, none⟩)

def read (p : FdcanMsgPort φ n) : FdcanMsgPort φ n × ReadResult φ :=
  if p.indexRead = 0 then
    match p.canFrameBuffer.receive with
    | some (pageRead, canFrameBuffer) =>
      handOut { p with
        canFrameBuffer
        pageRead
        indexRead := pageRead.count
        index_le := Nat.le_refl _ } true
    | none => handOut p false
  else handOut p false

/-- With `portMAX_DELAY` the call returns only once the page fits: `none` is waiting. -/
def flush (p : FdcanMsgPort φ n) : Option (FdcanMsgPort φ n) :=
  if 0 < p.pageReceive.count then
    (p.canFrameBuffer.send p.pageReceive).map fun canFrameBuffer =>
      { p with canFrameBuffer, pageReceive := p.pageReceive.clear }
  else some p

end FdcanMsgPort

end CanSniffer.Ports
