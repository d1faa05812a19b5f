import StatusListServer.CheckedEval

/-!
# The status list and its packed encoding

A `StatusList` is a bit width and the compressed text of a byte array that
holds one field of that width per index.  This file follows
`domain/models/status_list.rs` function by function: the width computation,
the writer with its single-byte and multi-byte paths, the reader that
widening uses, and `create` / `update` on top of them.

The zlib and base64url libraries are the parameter `Codec`; what the code
relies on is `Codec.Lawful`.
-/

namespace StatusListServer

open BitStream CheckedEval

/-- Domain errors of status lists. -/
inductive StatusListError
  | invalidIndex
  | invalidStatusList (message : String)
  | corruptStoredList (message : String)
  | alreadyExists
  | notFound
  | historicalNotFound
  | invalidHistoricalTime
  | issuerMismatch
  | tooLarge
  | tooManyStatuses (count max : Nat)
  | indexTooLarge (index max : Int32)
  | conflict
  | contention (code : String)
  | unavailable
  | backend (message : String)
deriving DecidableEq, Repr

/-- The status of one index. -/
inductive Status
  | valid
  | invalid
  | suspended
  | applicationSpecific (value : BitVec 32)
deriving DecidableEq, Repr

/-- An index and its target status. -/
structure StatusEntry where
  index : Int32
  status : Status
deriving DecidableEq, Repr

/-- The published form: field width and compressed, encoded byte array. -/
structure StatusList where
  bits : BitVec 8
  lst : String
deriving DecidableEq, Repr

/-- The compression and text-encoding libraries the code calls. -/
structure Codec where
  base64Encode : List Byte → String
  base64Decode : String → Except String (List Byte)
  zlibWriteAll : List Byte → Except String Unit
  zlibFinish : List Byte → Except String (List Byte)
  zlibReadToEnd : List Byte → Except String (List Byte)

/-- What the code relies on: decoding undoes encoding, decompression undoes
compression, and the empty text decodes to the empty array. -/
structure Codec.Lawful (codec : Codec) : Prop where
  base64_roundtrip : ∀ bytes, codec.base64Decode (codec.base64Encode bytes) = .ok bytes
  zlib_roundtrip : ∀ bytes packed, codec.zlibFinish bytes = .ok packed →
    codec.zlibReadToEnd packed = .ok bytes
  base64_empty : codec.base64Decode "" = .ok []
  zlib_empty : codec.zlibReadToEnd [] = .ok []

/-- `status_value`: values below 256 are not application-specific. -/
def statusValue : Status → Eval StatusListError (BitVec 32)
  | .valid => .ok 0
  | .invalid => .ok 1
  | .suspended => .ok 2
  | .applicationSpecific value =>
      if 256 ≤ value.toNat then .ok value
      else fail (.invalidStatusList "ApplicationSpecific value must be >= 256")

/-- `usize::next_power_of_two`: the least power of two that is at least `n`. -/
def nextPowerOfTwo (n : Nat) : Nat := 2 ^ Nat.clog 2 n

/-- `usize::trailing_zeros`: the position of the lowest set bit of a 64-bit
word, 64 for zero. -/
def trailingZeros (n : Nat) : Nat :=
  ((List.range 64).find? (fun k => n.testBit k)).getD 64

/-- The width arm of `determine_bits`. -/
def requiredBits (maxStatusValue : Nat) : Eval StatusListError Nat :=
  if maxStatusValue ≤ 1 then .ok 1
  else if maxStatusValue ≤ 3 then .ok 2
  else if maxStatusValue ≤ 15 then .ok 4
  else if maxStatusValue ≤ 255 then .ok 8
  else
    let bitsNeeded := trailingZeros (nextPowerOfTwo (maxStatusValue + 1))
    if bitsNeeded = 0 then fail (.invalidStatusList "Status value too large")
    else .ok bitsNeeded

/-- `determine_bits`: the width of the widest status, and no less than before. -/
def determineBits (statusUpdates : List StatusEntry) (originalBits : Option Nat) :
    Eval StatusListError Nat := do
  let values ← statusUpdates.mapM (fun entry => statusValue entry.status)
  match (values.map BitVec.toNat).max? with
  | none => fail (.invalidStatusList "Failed to determine max status value")
  | some maxStatusValue =>
      let required ← requiredBits maxStatusValue
      return max (originalBits.getD required) required

/-- `calculate_array_size`. -/
def calculateArraySize (statusUpdates : List StatusEntry) (bits : Nat) :
    Eval StatusListError Nat := do
  if statusUpdates.isEmpty then
    return 0
  match (statusUpdates.map (fun update => update.index.toInt)).max? with
  | none => fail (.invalidStatusList "Failed to determine max index")
  | some maxIndex =>
      if maxIndex < 0 then
        fail .invalidIndex
      else
        let endBit ← sub (maxIndex.toNat * bits + bits) 1
        return endBit / 8 + 1

/-- The single-byte path: the whole field lies in byte `byteIndex`. -/
def writeWithinByte (statusArray : List Byte) (byteIndex bitOffset bits : Nat)
    (value : BitVec 32) : Eval StatusListError (List Byte) := do
  let one ← shl 1#32 bits
  let window ← shl (one - 1#32) bitOffset
  let mask : Byte := window.setWidth 8
  let statusArray ← andAssign statusArray byteIndex (~~~mask)
  let shifted ← shl (value.setWidth 8) bitOffset
  orAssign statusArray byteIndex (shifted &&& mask)

/-- The array and write position of the multi-byte path. -/
structure WriteCursor where
  statusArray : List Byte
  curByte : Nat
  curOffset : Nat

/-- One bit of the multi-byte path: bit `bitsWritten + i` of the value. -/
def writeValueBit (value : BitVec 32) (bitsWritten : Nat) (cursor : WriteCursor)
    (i : Nat) : Eval StatusListError WriteCursor := do
  let globalBit := bitsWritten + i
  let shifted ← shr value globalBit
  let valueBit := shifted &&& 1#32
  let clear ← shl 1#8 cursor.curOffset
  let statusArray ← andAssign cursor.statusArray cursor.curByte (~~~clear)
  let bit ← shl (valueBit.setWidth 8) cursor.curOffset
  let statusArray ← orAssign statusArray cursor.curByte bit
  let curOffset := cursor.curOffset + 1
  if 8 ≤ curOffset then
    return ⟨statusArray, cursor.curByte + 1, 0⟩
  else
    return ⟨statusArray, cursor.curByte, curOffset⟩

/-- The `while bits_written < bits` loop of the multi-byte path. -/
def writeRemaining (value : BitVec 32) (bits : Nat) (cursor : WriteCursor)
    (bitsWritten : Nat) : Eval StatusListError (List Byte) :=
  if bitsWritten < bits then do
    let bitsThisByte := min (bits - bitsWritten) 8
    let cursor ← (List.range bitsThisByte).foldlM (writeValueBit value bitsWritten) cursor
    writeRemaining value bits cursor (bitsWritten + bitsThisByte)
  else
    .ok cursor.statusArray
termination_by bits - bitsWritten
decreasing_by omega

/-- The multi-byte path: the tail of byte `byteIndex`, then the bytes after it. -/
def writeAcrossBytes (statusArray : List Byte) (byteIndex bitOffset bits : Nat)
    (value : BitVec 32) : Eval StatusListError (List Byte) := do
  let firstByteBits := 8 - bitOffset
  let one ← shl 1#32 firstByteBits
  let window ← shl (one - 1#32) bitOffset
  let firstMask : Byte := window.setWidth 8
  let statusArray ← andAssign statusArray byteIndex (~~~firstMask)
  let shifted ← shl (value.setWidth 8) bitOffset
  let statusArray ← orAssign statusArray byteIndex (shifted &&& firstMask)
  writeRemaining value bits ⟨statusArray, byteIndex + 1, 0⟩ firstByteBits

/-- The body of the `apply_updates` loop. -/
def applyUpdate (bits : Nat) (statusArray : List Byte) (update : StatusEntry) :
    Eval StatusListError (List Byte) := do
  if update.index.toInt < 0 then
    fail .invalidIndex
  else
    let idx := update.index.toInt.toNat
    let bitPosition := idx * bits
    let byteIndex := bitPosition / 8
    let bitOffset := bitPosition % 8
    if statusArray.length ≤ byteIndex then
      fail (.invalidStatusList "Index out of bounds")
    else
      let value ← statusValue update.status
      if bitOffset + bits ≤ 8 then
        writeWithinByte statusArray byteIndex bitOffset bits value
      else
        writeAcrossBytes statusArray byteIndex bitOffset bits value

/-- `apply_updates`: every entry in turn. -/
def applyUpdates (statusArray : List Byte) (statusUpdates : List StatusEntry)
    (bits : Nat) : Eval StatusListError (List Byte) :=
  statusUpdates.foldlM (applyUpdate bits) statusArray

/-- `encode_compressed`. -/
def encodeCompressed (codec : Codec) (bytes : List Byte) :
    Eval StatusListError String :=
  match codec.zlibWriteAll bytes with
  | .error err =>
      fail (.invalidStatusList ("Failed to compress status list: " ++ err))
  | .ok () =>
      match codec.zlibFinish bytes with
      | .ok packed => .ok (codec.base64Encode packed)
      | .error err =>
          fail (.invalidStatusList ("Failed to finish status list compression: " ++ err))

/-- `decode_compressed`. -/
def decodeCompressed (codec : Codec) (encoded : String) :
    Eval StatusListError (List Byte) :=
  match codec.base64Decode encoded with
  | .error err => fail (.corruptStoredList ("Invalid lst encoding: " ++ err))
  | .ok bytes =>
      match codec.zlibReadToEnd bytes with
      | .error err =>
          fail (.corruptStoredList ("Failed to decompress status list: " ++ err))
      | .ok decoded => .ok decoded

/-- The locals of the reader's `while bits_read < bits` loop.  The current byte
always has a bit left, which is why the loop ends. -/
structure ReadCursor where
  curByte : Nat
  curOffset : Nat
  bitsInCurrentByte : Nat
  value : BitVec 32
  bitsRead : Nat
  bits_left : 0 < bitsInCurrentByte

/-- Step to the next byte once the current one is used up. -/
def ReadCursor.advance (cursor : ReadCursor) (bitsThisIter : Nat)
    (value : BitVec 32) : ReadCursor :=
  if h : cursor.bitsInCurrentByte - bitsThisIter = 0 then
    { curByte := cursor.curByte + 1
      curOffset := 0
      bitsInCurrentByte := 8
      value := value
      bitsRead := cursor.bitsRead + bitsThisIter
      bits_left := by decide }
  else
    { curByte := cursor.curByte
      curOffset := cursor.curOffset
      bitsInCurrentByte := cursor.bitsInCurrentByte - bitsThisIter
      value := value
      bitsRead := cursor.bitsRead + bitsThisIter
      bits_left := Nat.pos_of_ne_zero h }

/-- A cursor counts the bits it has read. -/
@[simp] theorem ReadCursor.advance_bitsRead (cursor : ReadCursor)
    (bitsThisIter : Nat) (value : BitVec 32) :
    (cursor.advance bitsThisIter value).bitsRead = cursor.bitsRead + bitsThisIter := by
  unfold ReadCursor.advance
  split <;> rfl

/-- The reader's loop over the bytes of one field. -/
def readValue (array : List Byte) (bits : Nat) (cursor : ReadCursor) :
    Eval StatusListError (BitVec 32) :=
  if cursor.bitsRead < bits then
    if array.length ≤ cursor.curByte then
      .ok cursor.value
    else do
      let bitsThisIter := min cursor.bitsInCurrentByte (bits - cursor.bitsRead)
      let byte ← index array cursor.curByte
      let shifted ← shr (byte.setWidth 16) cursor.curOffset
      let one ← shl 1#16 bitsThisIter
      let extracted : BitVec 32 := (shifted &&& (one - 1#16)).setWidth 32
      let placed ← shl extracted cursor.bitsRead
      readValue array bits (cursor.advance bitsThisIter (cursor.value ||| placed))
  else
    .ok cursor.value
termination_by bits - cursor.bitsRead
decreasing_by
  have := cursor.bits_left
  simp only [ReadCursor.advance_bitsRead]
  omega

/-- The cursor at the start of field `i`. -/
def ReadCursor.start (bits i : Nat) : ReadCursor where
  curByte := i * bits / 8
  curOffset := i * bits % 8
  bitsInCurrentByte := 8 - i * bits % 8
  value := 0
  bitsRead := 0
  bits_left := by omega

/-- The body of the `decode_status_array` loop. -/
def readStatus (array : List Byte) (bits i : Nat) : Eval StatusListError Status := do
  let value ← readValue array bits (ReadCursor.start bits i)
  if value = 0 then return .valid
  else if value = 1 then return .invalid
  else if value = 2 then return .suspended
  else if 256 ≤ value.toNat then return .applicationSpecific value
  else fail (.corruptStoredList "Invalid status value in existing list")

/-- `decode_status_array`: every slot in turn. -/
def decodeStatusArray (array : List Byte) (bits : Nat) :
    Eval StatusListError (List Status) := do
  let unused ← rem (array.length * 8) bits
  if 8 ≤ unused then
    fail (.corruptStoredList
      ("stored status array of " ++ toString array.length ++
        " bytes leaves an unused trailing byte at " ++ toString bits ++ "-bit width"))
  else
    (List.range (array.length * 8 / bits)).mapM (readStatus array bits)

namespace StatusList

/-- `create_with_bits`. -/
def createWithBits (codec : Codec) (statusUpdates : List StatusEntry) (bits : Nat) :
    Eval StatusListError StatusList := do
  let len ← calculateArraySize statusUpdates bits
  let statusArray ← applyUpdates (List.replicate len 0#8) statusUpdates bits
  let lst ← encodeCompressed codec statusArray
  return ⟨BitVec.ofNat 8 bits, lst⟩

/-- `StatusList::create`. -/
def create (codec : Codec) (statusUpdates : List StatusEntry) :
    Eval StatusListError StatusList := do
  if statusUpdates.isEmpty then
    return ⟨1, ""⟩
  let bits ← determineBits statusUpdates none
  let len ← calculateArraySize statusUpdates bits
  let statusArray ← applyUpdates (List.replicate len 0#8) statusUpdates bits
  let lst ← encodeCompressed codec statusArray
  return ⟨BitVec.ofNat 8 bits, lst⟩

/-- The decoded statuses of a list that is about to be widened, as entries. -/
def reindex (statuses : List Status) : List StatusEntry :=
  statuses.zipIdx.map (fun (status, index) => ⟨Int32.ofNat index, status⟩)

/-- `Vec::resize` with zero bytes, when the array is too short. -/
def growTo (statusArray : List Byte) (requiredLen : Nat) : List Byte :=
  if statusArray.length < requiredLen then
    statusArray ++ List.replicate (requiredLen - statusArray.length) 0#8
  else
    statusArray

/-- `StatusList::update`: in place, or over again at a greater width. -/
def update (codec : Codec) (self : StatusList) (statusUpdates : List StatusEntry) :
    Eval StatusListError StatusList := do
  if statusUpdates.isEmpty then
    return self
  let oldBits := self.bits.toNat
  let newBits ← determineBits statusUpdates (some oldBits)
  let statusArray ← decodeCompressed codec self.lst
  if oldBits < newBits then
    let decodedStatuses ← decodeStatusArray statusArray oldBits
    createWithBits codec (reindex decodedStatuses ++ statusUpdates) newBits
  else
    let requiredLen ← calculateArraySize statusUpdates oldBits
    let statusArray ← applyUpdates (growTo statusArray requiredLen) statusUpdates oldBits
    let lst ← encodeCompressed codec statusArray
    return ⟨self.bits, lst⟩

end StatusList

end StatusListServer
