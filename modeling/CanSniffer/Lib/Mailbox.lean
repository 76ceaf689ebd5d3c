universe u

namespace CanSniffer.Lib

structure Mailbox (α : Type u) (n : Nat) where
  items : List α
  le : items.length ≤ n

namespace Mailbox

variable {α : Type u} {n : Nat}

def empty : Mailbox α n where
  items := []
  le := Nat.zero_le n

def send (q : Mailbox α n) (a : α) : Option (Mailbox α n) :=
  if h : q.items.length < n then some ⟨q.items ++ [a], by rwa [List.length_append]⟩ else none

def receive : Mailbox α n → Option (α × Mailbox α n)
  | ⟨[], _⟩ => none
  | ⟨a :: as, h⟩ => some (a, ⟨as, Nat.le_of_succ_le h⟩)

@[simp] theorem items_empty : (empty : Mailbox α n).items = [] := rfl

theorem items_send {q r : Mailbox α n} (h : q.send a = some r) : r.items = q.items ++ [a] := by
  unfold send at h
  split at h
  · cases h
    rfl
  · contradiction

theorem send_isSome {q : Mailbox α n} : (q.send a).isSome ↔ q.items.length < n := by
  unfold send
  split <;> simp [*]

theorem send_eq_none_iff {q : Mailbox α n} : q.send a = none ↔ q.items.length = n := by
  have := q.le
  unfold send
  split
  · next h => simp [Nat.ne_of_lt h]
  · next h => simp [Nat.le_antisymm this (Nat.not_lt.mp h)]

theorem items_receive {q r : Mailbox α n} (h : q.receive = some (a, r)) :
    q.items = a :: r.items := by
  cases q with
  | mk items le =>
    cases items with
    | nil => contradiction
    | cons b bs =>
      cases h
      rfl

theorem receive_eq_none_iff {q : Mailbox α n} : q.receive = none ↔ q.items = [] := by
  cases q with
  | mk items le => cases items <;> simp [receive]

end Mailbox

end CanSniffer.Lib
