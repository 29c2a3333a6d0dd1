import Xmrig.Base.Job

/-! The bounds-checked reader of a byte buffer.

`m_data` is an offset into the memory that the reader was opened on, so that a
read outside of it is a fault rather than a value. The reader's additions go
through `wrap`: `sizeT` is the arithmetic of the code, `id` the exact arithmetic
it is compared with.
-/

set_option autoImplicit false

namespace Xmrig

/-- Arithmetic of `size_t`. -/
def sizeT (n : Nat) : Nat := n % 2 ^ 64

/-- A view `{ m_data + m_index, n }` into the buffer. -/
structure Span where
  start : Nat
  size : Nat
  deriving DecidableEq, Repr

def Span.empty (span : Span) : Bool := span.size = 0

inductive ReadError where
  | outOfRange
  | fault
  deriving DecidableEq, Repr

structure BlobReader where
  data : Nat
  size : Nat
  index : Nat
  deriving DecidableEq, Repr

namespace BlobReader

def open' (data size : Nat) : BlobReader := ⟨data, size, 0⟩

def remaining (reader : BlobReader) : Nat := reader.size - reader.index

section Operations
variable (wrap : Nat → Nat) (memory : List Byte)

/-- The range check and the move that `skip` and both sized overloads share. -/
def advance (reader : BlobReader) (n : Nat) : Except ReadError BlobReader :=
  if wrap (reader.index + n) > reader.size then .error .outOfRange
  else .ok { reader with index := wrap (reader.index + n) }

def skip (reader : BlobReader) (n : Nat) : Except ReadError (Unit × BlobReader) :=
  (advance wrap reader n).map fun next => ((), next)

/-- The overload for a fixed array: `n` bytes are copied out. -/
def array (reader : BlobReader) (n : Nat) : Except ReadError (List Byte × BlobReader) :=
  (advance wrap reader n).bind fun next =>
    if reader.data + reader.index + n > memory.length then .error .fault
    else .ok ((memory.drop (reader.data + reader.index)).take n, next)

def span (reader : BlobReader) (n : Nat) : Except ReadError (Span × BlobReader) :=
  (advance wrap reader n).map fun next => (⟨reader.data + reader.index, n⟩, next)

/-- `m_index++` follows `m_index < m_size` and cannot leave the word. -/
def getByte (reader : BlobReader) : Except ReadError (Byte × BlobReader) :=
  if reader.index ≥ reader.size then .error .outOfRange
  else match memory[reader.data + reader.index]? with
    | none => .error .fault
    | some byte => .ok (byte, { reader with index := reader.index + 1 })

/-- The loop of `getVarint`. Its rounds are bounded by the bytes left; shift counts
are taken modulo the word size, as the target does. -/
def varintFrom : (rounds : Nat) → (result : BitVec 64) → (shift : Nat) → BlobReader →
    Except ReadError (BitVec 64 × BlobReader)
  | 0, _, _, _ => .error .outOfRange
  | rounds + 1, result, shift, reader =>
    match getByte memory reader with
    | .error why => .error why
    | .ok (t, next) =>
      let sum := result ||| ((t &&& 0x7f).setWidth 64 <<< (shift % 64))
      if t &&& 0x80 = 0 then .ok (sum, next) else varintFrom rounds sum (shift + 7) next

def getVarint (reader : BlobReader) : Except ReadError (BitVec 64 × BlobReader) :=
  varintFrom memory (reader.remaining + 1) 0 0 reader

end Operations

/-- A reader whose range lies in the memory and whose position lies in its range. -/
structure Within (reader : BlobReader) (length : Nat) : Prop where
  range : reader.data + reader.size ≤ length
  position : reader.index ≤ reader.size

/-- The same range at a later position inside of it. -/
structure Advances (before after : BlobReader) : Prop where
  data : after.data = before.data
  size : after.size = before.size
  forward : before.index ≤ after.index
  inside : after.index ≤ after.size

section Exact
variable {memory : List Byte} {reader next : BlobReader} {n : Nat}

theorem Advances.within {length : Nat} (within : reader.Within length)
    (advances : Advances reader next) : next.Within length :=
  ⟨by rw [advances.data, advances.size]; exact within.range, advances.inside⟩

theorem advance_advances (read : advance id reader n = .ok next) :
    Advances reader next ∧ next.index = reader.index + n := by
  unfold advance at read
  split at read
  · cases read
  · cases read
    exact ⟨⟨rfl, rfl, Nat.le_add_right _ _, by simp_all⟩, rfl⟩

theorem array_advances {value : List Byte} (read : array id memory reader n = .ok (value, next)) :
    Advances reader next := by
  unfold array at read
  cases moved : advance id reader n with
  | error why => rw [moved] at read; cases read
  | ok after =>
    rw [moved] at read
    simp only [Except.bind] at read
    split at read
    · cases read
    · cases read
      exact (advance_advances moved).1

theorem advance_ne_fault : advance id reader n ≠ .error .fault := by
  unfold advance
  split <;> simp

theorem getByte_advances {value : Byte} (read : getByte memory reader = .ok (value, next)) :
    Advances reader next ∧ next.index = reader.index + 1 := by
  unfold getByte at read
  split at read
  · cases read
  · rename_i room
    split at read
    · cases read
    · cases read
      exact ⟨⟨rfl, rfl, Nat.le_succ _, by simp only; omega⟩, rfl⟩

theorem varintFrom_advances {value : BitVec 64} (rounds : Nat) (result : BitVec 64) (shift : Nat)
    (read : varintFrom memory rounds result shift reader = .ok (value, next)) :
    Advances reader next ∧ reader.index + 1 ≤ next.index := by
  induction rounds generalizing result shift reader with
  | zero => cases read
  | succ rounds ih =>
    simp only [varintFrom] at read
    split at read
    · cases read
    · rename_i t middle first
      obtain ⟨moved, one⟩ := getByte_advances first
      split at read
      · cases read
        exact ⟨moved, one.ge⟩
      · obtain ⟨later, _⟩ := ih _ _ read
        have := later.forward
        exact ⟨⟨later.data.trans moved.data, later.size.trans moved.size,
          moved.forward.trans later.forward, later.inside⟩, by omega⟩

theorem getVarint_advances {value : BitVec 64} (read : getVarint memory reader = .ok (value, next)) :
    Advances reader next ∧ reader.index + 1 ≤ next.index :=
  varintFrom_advances _ _ _ read

/-- A reader inside the memory never reads outside of it. -/
theorem getByte_no_fault (within : reader.Within memory.length) :
    getByte memory reader ≠ .error .fault := by
  unfold getByte
  split
  · simp
  · rename_i room
    have inside : reader.data + reader.index < memory.length := by
      have := within.range
      omega
    rw [List.getElem?_eq_getElem inside]
    simp

theorem varintFrom_no_fault (rounds : Nat) (result : BitVec 64) (shift : Nat)
    (within : reader.Within memory.length) :
    varintFrom memory rounds result shift reader ≠ .error .fault := by
  induction rounds generalizing result shift reader with
  | zero => simp [varintFrom]
  | succ rounds ih =>
    simp only [varintFrom]
    split
    · rename_i why stopped
      intro fault
      cases fault
      exact getByte_no_fault within stopped
    · rename_i t next first
      split
      · simp
      · exact ih _ _ ((getByte_advances first).1.within within)

theorem getVarint_no_fault (within : reader.Within memory.length) :
    getVarint memory reader ≠ .error .fault := varintFrom_no_fault _ _ _ within

theorem array_no_fault (within : reader.Within memory.length) :
    array id memory reader n ≠ .error .fault := by
  unfold array
  cases moved : advance id reader n with
  | error why =>
    intro fault
    cases fault
    exact advance_ne_fault moved
  | ok next =>
    obtain ⟨advances, position⟩ := advance_advances moved
    have range := within.range
    have inside := advances.inside
    have same := advances.size
    simp only [Except.bind]
    rw [if_neg (by omega)]
    simp

end Exact

section Machine
variable {memory : List Byte} {reader : BlobReader} {n : Nat}

theorem sizeT_of_lt {m : Nat} (fits : m < 2 ^ 64) : sizeT m = m := Nat.mod_eq_of_lt fits

theorem advance_machine (fits : reader.index + n < 2 ^ 64) :
    advance sizeT reader n = advance id reader n := by
  simp only [advance, sizeT_of_lt fits, id_eq]

/-- A length that carries the position past the word size passes the check and
moves the reader backwards. -/
theorem advance_machine_wraps (word : n < 2 ^ 64) (position : reader.index ≤ reader.size)
    (small : reader.size < 2 ^ 64) (wraps : 2 ^ 64 ≤ reader.index + n) :
    ∃ next, advance sizeT reader n = .ok next ∧ next.index < reader.index := by
  have back : sizeT (reader.index + n) < reader.index := by
    unfold sizeT
    omega
  refine ⟨{ reader with index := sizeT (reader.index + n) }, ?_, back⟩
  simp only [advance]
  rw [if_neg (by omega)]

end Machine

end BlobReader

end Xmrig
