import Mathlib.Data.BitVec

namespace StaticInit

/-!
# Phases and the bits of a lock word

A lock word is a `u32`.  Its low byte is the phase of the target object, the
next 21 bits count readers, and the three highest bits are the lock bit and
the two waiter bits.  The eight phase flags use the whole low byte, so a phase
is represented by that byte and `Phase::from_bits_truncate` is truncation.
-/

/-- The machine word shared by the threads. -/
abbrev U32 := BitVec 32

def writeWaiterBit : U32 := 0b10000000000000000000000000000000#32

def readWaiterBit : U32 := 0b01000000000000000000000000000000#32

def lockedBit : U32 := 0b00100000000000000000000000000000#32

def readerBits : U32 := 0b00001111111111111111111100000000#32

def readerOverf : U32 := 0b00010000000000000000000000000000#32

def readerUnity : U32 := 0b00000000000000000000000100000000#32

/-- The most readers one wake may pick: `READER_OVERF / READER_UNITY`. -/
def maxWakedReaders : Nat := (readerOverf / readerUnity).toNat

theorem maxWakedReaders_eq : maxWakedReaders = 2 ^ 20 := by
  decide

/-- The lifetime phase of an object, a set of flags. -/
@[ext] structure Phase where
  flags : BitVec 8
  deriving Repr, DecidableEq

namespace Phase

def initialized : Phase := ⟨0b00000001#8⟩

def initializationPanicked : Phase := ⟨0b00000010#8⟩

def initializationSkiped : Phase := ⟨0b00000100#8⟩

def registered : Phase := ⟨0b00001000#8⟩

def registrationPanicked : Phase := ⟨0b00010000#8⟩

def registrationRefused : Phase := ⟨0b00100000#8⟩

def finalized : Phase := ⟨0b01000000#8⟩

def finalizationPanicked : Phase := ⟨0b10000000#8⟩

def empty : Phase := ⟨0#8⟩

instance : OrOp Phase := ⟨fun first second => ⟨first.flags ||| second.flags⟩⟩

instance : AndOp Phase := ⟨fun first second => ⟨first.flags &&& second.flags⟩⟩

instance : XorOp Phase := ⟨fun first second => ⟨first.flags ^^^ second.flags⟩⟩

instance : Complement Phase := ⟨fun phase => ⟨~~~phase.flags⟩⟩

def isEmpty (phase : Phase) : Bool :=
  phase.flags == 0#8

def intersects (phase other : Phase) : Bool :=
  !(phase &&& other).isEmpty

/-- The flags as a lock word. -/
def bits (phase : Phase) : U32 :=
  phase.flags.setWidth 32

/-- Keep the phase flags of a lock word and drop its other bits. -/
def fromBitsTruncate (word : U32) : Phase :=
  ⟨word.setWidth 8⟩

/-- The phase of a word that holds phase flags only. -/
def fromBits (word : U32) : Option Phase :=
  if (fromBitsTruncate word).bits = word then
    some (fromBitsTruncate word)
  else
    none

@[simp] theorem flags_or (first second : Phase) :
    (first ||| second).flags = first.flags ||| second.flags :=
  rfl

@[simp] theorem flags_and (first second : Phase) :
    (first &&& second).flags = first.flags &&& second.flags :=
  rfl

@[simp] theorem flags_xor (first second : Phase) :
    (first ^^^ second).flags = first.flags ^^^ second.flags :=
  rfl

@[simp] theorem flags_complement (phase : Phase) :
    (~~~phase).flags = ~~~phase.flags :=
  rfl

@[simp] theorem or_empty (phase : Phase) :
    phase ||| empty = phase := by
  apply Phase.ext
  simp [empty]

@[simp] theorem and_empty (phase : Phase) :
    phase &&& empty = empty := by
  apply Phase.ext
  simp [empty]

@[simp] theorem xor_empty (phase : Phase) :
    phase ^^^ empty = phase := by
  apply Phase.ext
  simp [empty]

@[simp] theorem empty_xor (phase : Phase) :
    empty ^^^ phase = phase := by
  apply Phase.ext
  simp [empty]

@[simp] theorem fromBitsTruncate_bits (phase : Phase) :
    fromBitsTruncate phase.bits = phase := by
  apply Phase.ext
  simp [fromBitsTruncate, bits]

@[simp] theorem fromBitsTruncate_xor (first second : U32) :
    fromBitsTruncate (first ^^^ second) =
      fromBitsTruncate first ^^^ fromBitsTruncate second := by
  apply Phase.ext
  simp [fromBitsTruncate]

@[simp] theorem fromBitsTruncate_and (first second : U32) :
    fromBitsTruncate (first &&& second) =
      fromBitsTruncate first &&& fromBitsTruncate second := by
  apply Phase.ext
  simp [fromBitsTruncate]

@[simp] theorem fromBitsTruncate_or (first second : U32) :
    fromBitsTruncate (first ||| second) =
      fromBitsTruncate first ||| fromBitsTruncate second := by
  apply Phase.ext
  simp [fromBitsTruncate]

/-- Adding a difference to the phase it was computed from gives the target. -/
@[simp] theorem xor_xor_self (first second : Phase) :
    first ^^^ (first ^^^ second) = second := by
  apply Phase.ext
  rw [flags_xor, flags_xor, ← BitVec.xor_assoc, BitVec.xor_self,
    BitVec.zero_xor]

theorem xor_comm (first second : Phase) :
    first ^^^ second = second ^^^ first := by
  apply Phase.ext
  exact BitVec.xor_comm ..

theorem xor_assoc (first second third : Phase) :
    (first ^^^ second) ^^^ third = first ^^^ (second ^^^ third) := by
  apply Phase.ext
  exact BitVec.xor_assoc ..

@[simp] theorem xor_self (phase : Phase) :
    phase ^^^ phase = empty := by
  apply Phase.ext
  exact BitVec.xor_self

/-- Adding a difference gives its target exactly where it starts from. -/
theorem xor_xor_eq_iff {first second target : Phase} :
    first ^^^ (second ^^^ target) = target ↔ first = second := by
  constructor
  · intro same
    calc
      first = (first ^^^ (second ^^^ target)) ^^^ (second ^^^ target) := by
        rw [xor_assoc, xor_self, xor_empty]
      _ = second := by
        rw [same, xor_comm second target, xor_xor_self]
  · rintro rfl
    exact xor_xor_self ..

@[simp] theorem isEmpty_iff (phase : Phase) :
    phase.isEmpty = true ↔ phase = empty := by
  simp [isEmpty, Phase.ext_iff, empty]

/-- A union has a flag exactly when one of its parts has it. -/
@[simp] theorem intersects_or (first second flag : Phase) :
    (first ||| second).intersects flag =
      (first.intersects flag || second.intersects flag) := by
  rw [Bool.eq_iff_iff]
  simp only [intersects, isEmpty, flags_and, flags_or, Bool.not_eq_true',
    beq_eq_false_iff_ne, Bool.or_eq_true, BitVec.and_or_distrib_right]
  rw [Ne, BitVec.or_eq_zero_iff, Classical.not_and_iff_not_or_not]

@[simp] theorem not_empty_intersects (flag : Phase) :
    empty.intersects flag = false := by
  simp [intersects, isEmpty, empty]

/-- Removing flags does not touch the others. -/
theorem intersects_and_complement
    (phase : Phase)
    {removed flag : Phase}
    (apart : ~~~removed &&& flag = flag) :
    (phase &&& ~~~removed).intersects flag = phase.intersects flag := by
  have same : (phase &&& ~~~removed) &&& flag = phase &&& flag := by
    apply Phase.ext
    have flags := congrArg Phase.flags apart
    simp only [flags_and, flags_complement] at flags ⊢
    rw [BitVec.and_assoc, flags]
  rw [intersects, same, intersects]

/-- A phase that has a flag is not empty. -/
theorem not_isEmpty_of_intersects
    {phase flag : Phase}
    (found : phase.intersects flag = true) :
    phase.isEmpty = false := by
  rw [← Bool.not_eq_true, isEmpty_iff]
  rintro rfl
  rw [not_empty_intersects] at found
  cases found

end Phase

/-- Nature of the lock requested. -/
inductive LockNature where
  | read
  | write
  | none
  deriving Repr, DecidableEq

/-- Result of a phased locking. -/
inductive LockResult (Read Write : Type) where
  | read (guard : Read)
  | write (guard : Write)
  | none (phase : Phase)
  deriving Repr, DecidableEq

end StaticInit
