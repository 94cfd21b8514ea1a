import StaticInit.Phase

namespace StaticInit

/-!
# Reading a lock word field by field

`LockWord` is a lock word cut into its five fields.  Every `u32` is the packing
of exactly one `LockWord`, so the bit operations of the lockers can be read as
operations on fields: xor, and and or act on each field separately, and adding
or subtracting reader units acts on the reader field as long as it neither
carries nor borrows.
-/

/-- The fields of a lock word, from the highest bit to the lowest. -/
@[ext] structure LockWord where
  writeWaiter : Bool
  readWaiter : Bool
  locked : Bool
  readers : BitVec 21
  phase : Phase
  deriving Repr, DecidableEq

/-- Concatenating bit vectors weighs the high part by the low width. -/
private theorem toNat_append_add
    {width lower : Nat}
    (high : BitVec width)
    (low : BitVec lower) :
    (high ++ low).toNat = high.toNat * 2 ^ lower + low.toNat := by
  rw [BitVec.toNat_append,
    ← Nat.shiftLeft_add_eq_or_of_lt low.isLt, Nat.shiftLeft_eq]

namespace LockWord

/-- Put the fields back into one machine word. -/
def pack (fields : LockWord) : U32 :=
  BitVec.ofBool fields.writeWaiter ++
    (BitVec.ofBool fields.readWaiter ++
      (BitVec.ofBool fields.locked ++
        (fields.readers ++ fields.phase.flags)))

/-- Cut a machine word into its fields. -/
def view (word : U32) : LockWord where
  writeWaiter := word.getLsbD 31
  readWaiter := word.getLsbD 30
  locked := word.getLsbD 29
  readers := word.extractLsb' 8 21
  phase := Phase.fromBitsTruncate word

/-- A packed word as a sum of its weighted fields. -/
theorem toNat_pack (fields : LockWord) :
    fields.pack.toNat =
      fields.writeWaiter.toNat * 2 ^ 31 +
        (fields.readWaiter.toNat * 2 ^ 30 +
          (fields.locked.toNat * 2 ^ 29 +
            (fields.readers.toNat * 2 ^ 8 +
              fields.phase.flags.toNat))) := by
  simp only [pack, toNat_append_add, BitVec.toNat_ofBool]

/-- Each bit of a packed word belongs to one field. -/
private theorem getLsbD_pack
    (fields : LockWord)
    (index : Nat) :
    fields.pack.getLsbD index =
      if index < 8 then fields.phase.flags.getLsbD index
      else if index < 29 then fields.readers.getLsbD (index - 8)
      else if index = 29 then fields.locked
      else if index = 30 then fields.readWaiter
      else if index = 31 then fields.writeWaiter
      else false := by
  simp only [pack, BitVec.getLsbD_append, BitVec.getLsbD_ofBool]
  split_ifs
  all_goals first | rfl | omega | simp; omega

/-- Viewing a packed word gives its fields back. -/
@[simp] theorem view_pack (fields : LockWord) :
    view fields.pack = fields := by
  apply LockWord.ext
  · simp only [view, getLsbD_pack]
    rfl
  · simp only [view, getLsbD_pack]
    rfl
  · simp only [view, getLsbD_pack]
    rfl
  · apply BitVec.eq_of_getLsbD_eq
    intro index bound
    have inReaders : 8 + index < 29 := by omega
    simp [view, getLsbD_pack, bound, inReaders]
  · apply Phase.ext
    apply BitVec.eq_of_getLsbD_eq
    intro index bound
    simp only [view, Phase.fromBitsTruncate,
      BitVec.getLsbD_setWidth, getLsbD_pack]
    simp [bound]

/-- Packing the view of a word gives the word back. -/
@[simp] theorem pack_view (word : U32) :
    (view word).pack = word := by
  apply BitVec.eq_of_getLsbD_eq
  intro index bound
  rw [getLsbD_pack]
  simp only [view, Phase.fromBitsTruncate,
    BitVec.getLsbD_setWidth, BitVec.getLsbD_extractLsb']
  split_ifs with inPhase inReaders isLocked isReadWaiter isWriteWaiter
  · simp [inPhase]
  · have inField : index - 8 < 21 := by omega
    have position : 8 + (index - 8) = index := by omega
    simp [inField, position]
  · rw [isLocked]
  · rw [isReadWaiter]
  · rw [isWriteWaiter]
  · omega

/-- Words with the same fields are equal. -/
theorem view_injective : Function.Injective view := by
  intro first second same
  rw [← pack_view first, ← pack_view second, same]

theorem view_inj {first second : U32} :
    view first = view second ↔ first = second :=
  view_injective.eq_iff

@[simp] theorem view_xor (first second : U32) :
    view (first ^^^ second) =
      { writeWaiter := (view first).writeWaiter ^^ (view second).writeWaiter
        readWaiter := (view first).readWaiter ^^ (view second).readWaiter
        locked := (view first).locked ^^ (view second).locked
        readers := (view first).readers ^^^ (view second).readers
        phase := (view first).phase ^^^ (view second).phase } := by
  apply LockWord.ext
  case readers => exact BitVec.extractLsb'_xor
  case phase => exact Phase.fromBitsTruncate_xor first second
  all_goals exact BitVec.getLsbD_xor

@[simp] theorem view_and (first second : U32) :
    view (first &&& second) =
      { writeWaiter := (view first).writeWaiter && (view second).writeWaiter
        readWaiter := (view first).readWaiter && (view second).readWaiter
        locked := (view first).locked && (view second).locked
        readers := (view first).readers &&& (view second).readers
        phase := (view first).phase &&& (view second).phase } := by
  apply LockWord.ext
  case readers => exact BitVec.extractLsb'_and
  case phase => exact Phase.fromBitsTruncate_and first second
  all_goals exact BitVec.getLsbD_and

@[simp] theorem view_or (first second : U32) :
    view (first ||| second) =
      { writeWaiter := (view first).writeWaiter || (view second).writeWaiter
        readWaiter := (view first).readWaiter || (view second).readWaiter
        locked := (view first).locked || (view second).locked
        readers := (view first).readers ||| (view second).readers
        phase := (view first).phase ||| (view second).phase } := by
  apply LockWord.ext
  case readers => exact BitVec.extractLsb'_or
  case phase => exact Phase.fromBitsTruncate_or first second
  all_goals exact BitVec.getLsbD_or

@[simp] theorem view_zero :
    view 0#32 = ⟨false, false, false, 0#21, Phase.empty⟩ :=
  rfl

@[simp] theorem view_writeWaiterBit :
    view writeWaiterBit = ⟨true, false, false, 0#21, Phase.empty⟩ :=
  rfl

@[simp] theorem view_readWaiterBit :
    view readWaiterBit = ⟨false, true, false, 0#21, Phase.empty⟩ :=
  rfl

@[simp] theorem view_lockedBit :
    view lockedBit = ⟨false, false, true, 0#21, Phase.empty⟩ :=
  rfl

@[simp] theorem view_not_lockedBit :
    view (~~~lockedBit) =
      ⟨true, true, false, BitVec.allOnes 21, ⟨BitVec.allOnes 8⟩⟩ :=
  rfl

@[simp] theorem view_readerBits :
    view readerBits = ⟨false, false, false, 0xFFFFF#21, Phase.empty⟩ :=
  rfl

@[simp] theorem view_readerOverf :
    view readerOverf = ⟨false, false, false, 0x100000#21, Phase.empty⟩ :=
  rfl

@[simp] theorem view_readerUnity :
    view readerUnity = ⟨false, false, false, 1#21, Phase.empty⟩ :=
  rfl

@[simp] theorem view_bits (phase : Phase) :
    view phase.bits = ⟨false, false, false, 0#21, phase⟩ := by
  have packed :
      phase.bits =
        pack ⟨false, false, false, 0#21, phase⟩ := by
    apply BitVec.eq_of_toNat_eq
    have bound := phase.flags.isLt
    rw [toNat_pack]
    simp only [Phase.bits, BitVec.toNat_setWidth]
    simp
    omega
  rw [packed, view_pack]

/-- A word as the sum of its weighted fields. -/
theorem toNat_eq (word : U32) :
    word.toNat =
      (view word).writeWaiter.toNat * 2 ^ 31 +
        ((view word).readWaiter.toNat * 2 ^ 30 +
          ((view word).locked.toNat * 2 ^ 29 +
            ((view word).readers.toNat * 2 ^ 8 +
              (view word).phase.flags.toNat))) := by
  rw [← toNat_pack, pack_view]

/-- Replacing the reader field moves the word by that many reader units. -/
theorem toNat_pack_readers
    (word : U32)
    (readers : BitVec 21) :
    (pack { view word with readers := readers }).toNat +
        (view word).readers.toNat * 2 ^ 8 =
      word.toNat + readers.toNat * 2 ^ 8 := by
  rw [toNat_pack, toNat_eq word]
  dsimp only
  omega

/-- Adding one reader unit below the field's limit does not carry. -/
theorem view_add_readerUnity
    {word : U32}
    (room : (view word).readers.toNat + 1 < 2 ^ 21) :
    view (word + readerUnity) =
      { view word with readers := (view word).readers + 1 } := by
  have packed :
      word + readerUnity =
        pack { view word with readers := (view word).readers + 1 } := by
    apply BitVec.eq_of_toNat_eq
    have moved :=
      toNat_pack_readers word ((view word).readers + 1)
    have added :
        ((view word).readers + 1).toNat =
          (view word).readers.toNat + 1 := by
      rw [BitVec.toNat_add]
      exact Nat.mod_eq_of_lt room
    have bound := (pack
      { view word with readers := (view word).readers + 1 }).isLt
    rw [BitVec.toNat_add]
    have unit : readerUnity.toNat = 2 ^ 8 := rfl
    omega
  rw [packed, view_pack]

/-- Subtracting counted reader units does not borrow. -/
theorem view_sub_units
    {word units : U32}
    {count : Nat}
    (weight : units.toNat = count * 2 ^ 8)
    (counted : count ≤ (view word).readers.toNat) :
    view (word - units) =
      { view word with
        readers := BitVec.ofNat 21 ((view word).readers.toNat - count) } := by
  have packed :
      word - units =
        pack { view word with
          readers :=
            BitVec.ofNat 21 ((view word).readers.toNat - count) } := by
    apply BitVec.eq_of_toNat_eq
    have moved :=
      toNat_pack_readers word
        (BitVec.ofNat 21 ((view word).readers.toNat - count))
    have fieldBound := (view word).readers.isLt
    have kept :
        (BitVec.ofNat 21 ((view word).readers.toNat - count)).toNat =
          (view word).readers.toNat - count := by
      rw [BitVec.toNat_ofNat]
      exact Nat.mod_eq_of_lt (by omega)
    have lower : units ≤ word := by
      rw [BitVec.le_def, toNat_eq word]
      omega
    rw [BitVec.toNat_sub_of_le lower]
    omega
  rw [packed, view_pack]

end LockWord

end StaticInit
