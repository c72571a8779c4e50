-- Tables keyed by names. Keys stay in the order of their first arrival.

namespace TestFocus

structure Table (α : Type u) where
  entries : List (String × α)
deriving Repr, DecidableEq

namespace Table

variable {α : Type u} {β : Type v}

def empty : Table α :=
  ⟨[]⟩

instance : EmptyCollection (Table α) := ⟨empty⟩

instance : Inhabited (Table α) := ⟨empty⟩

def find (key : String) : List (String × α) → Option α
  | [] => none
  | (k, a) :: rest => if k = key then some a else find key rest

def get? (t : Table α) (key : String) : Option α :=
  find key t.entries

def contains (t : Table α) (key : String) : Bool :=
  (t.get? key).isSome

def put (key : String) (a : α) : List (String × α) → List (String × α)
  | [] => [(key, a)]
  | (k, b) :: rest => if k = key then (k, a) :: rest else (k, b) :: put key a rest

-- Replaces the value of a key that is there, and adds a new key at the end.
def insert (t : Table α) (key : String) (a : α) : Table α :=
  ⟨put key a t.entries⟩

-- Keeps the value of a key that is there.
def insertNew (t : Table α) (key : String) (a : α) : Table α :=
  if t.contains key then t else t.insert key a

-- Changes the value of a key, starting from `default` when the key is new.
def update (t : Table α) (key : String) (default : α) (f : α → α) : Table α :=
  t.insert key (f ((t.get? key).getD default))

def keys (t : Table α) : List String :=
  t.entries.map (·.1)

def size (t : Table α) : Nat :=
  t.entries.length

def isEmpty (t : Table α) : Bool :=
  t.entries.isEmpty

theorem find_put (key other : String) (a : α) (entries : List (String × α)) :
    find other (put key a entries) = if other = key then some a else find other entries := by
  induction entries with
  | nil =>
    simp only [put, find]
    grind
  | cons e entries ih =>
    obtain ⟨k, b⟩ := e
    simp only [put]
    by_cases hk : k = key
    · simp only [if_pos hk, find]
      grind
    · simp only [if_neg hk, find, ih]
      grind

theorem get?_insert (t : Table α) (key other : String) (a : α) :
    (t.insert key a).get? other = if other = key then some a else t.get? other :=
  find_put key other a t.entries

theorem contains_insert (t : Table α) (key other : String) (a : α) :
    (t.insert key a).contains other = (other == key || t.contains other) := by
  simp only [contains, get?_insert]
  by_cases hother : other = key
  · simp [hother]
  · simp [hother]

end Table

end TestFocus
