import Peer.Basis.LittleEndian

/-! Constants, fixed-width integers and the plain records of the storage layer.
Machine integers are natural numbers reduced where the source truncates. -/
namespace Storage

open Basis

/-- `SUB_PIECE_SIZE`, also `bytes_num_per_subpiece_g_`. -/
def bytesNumPerSubpiece : Nat := 1024

/-- `subpiece_num_per_piece_g_`. -/
def subpieceNumPerPiece : Nat := 128

/-- Assignment to a `boost::uint32_t`. -/
def u32 (n : Nat) : Nat := n % 2 ^ 32

/-- Assignment to a `boost::uint16_t`. -/
def u16 (n : Nat) : Nat := n % 2 ^ 16

/-- Subtraction of two `boost::uint32_t` values. -/
def subU32 (a b : Nat) : Nat := u32 (a + 2 ^ 32 - b)

theorem u32_lt (n : Nat) : u32 n < 2 ^ 32 := Nat.mod_lt _ (by decide)

theorem u32_le (n : Nat) : u32 n ≤ n := Nat.mod_le _ _

theorem u32_of_lt {n : Nat} (h : n < 2 ^ 32) : u32 n = n := Nat.mod_eq_of_lt h

theorem u32_add_left (a b : Nat) : u32 (u32 a + b) = u32 (a + b) := by
  simp [u32]

theorem u16_lt (n : Nat) : u16 n < 2 ^ 16 := Nat.mod_lt _ (by decide)

theorem u16_of_lt {n : Nat} (h : n < 2 ^ 16) : u16 n = n := Nat.mod_eq_of_lt h

theorem u16_le (n : Nat) : u16 n ≤ n := Nat.mod_le _ _

theorem subU32_of_le {a b : Nat} (ha : a < 2 ^ 32) (h : b ≤ a) : subU32 a b = a - b := by
  unfold subU32 u32
  omega

-- Otherwise `rfl` compares two such terms by counting down from 2^32.
attribute [irreducible] u32 u16 subU32

/-- `memcpy2` refuses, by dereferencing a null pointer, a copy larger than the
room at the destination and any size above `0x3FFFFFFF`. A copy of nothing
returns before these checks. -/
def memcpy2Ok (numberOfElements count : Nat) : Bool :=
  count == 0 || (count ≤ 0x3FFFFFFF && numberOfElements ≤ 0x3FFFFFFF && count ≤ numberOfElements)

theorem memcpy2Ok_iff {n c : Nat} :
    memcpy2Ok n c = true ↔ c = 0 ∨ (c ≤ n ∧ n ≤ 0x3FFFFFFF) := by
  simp only [memcpy2Ok, Bool.or_eq_true, Bool.and_eq_true, beq_iff_eq, decide_eq_true_eq]
  omega

/-- The 16 bytes of an MD5 or a RID. -/
structure Guid where
  bytes : Bytes
  length_eq : bytes.length = 16
deriving DecidableEq

/-- The value of the default constructor. -/
def Guid.zero : Guid := ⟨List.replicate 16 0, by simp⟩

/-- `protocol::SubPieceInfo`: a block index and a subpiece index inside it, both
`boost::uint16_t`. -/
@[ext] structure SubPieceInfo where
  blockIndex : Nat
  subpieceIndex : Nat
  blockIndex_lt : blockIndex < 2 ^ 16
  subpieceIndex_lt : subpieceIndex < 2 ^ 16
deriving DecidableEq, Repr

/-- Assignment of wider integers to the two fields. -/
def SubPieceInfo.make (blockIndex subpieceIndex : Nat) : SubPieceInfo :=
  ⟨u16 blockIndex, u16 subpieceIndex, u16_lt _, u16_lt _⟩

@[simp] theorem SubPieceInfo.make_blockIndex (b s : Nat) : (make b s).blockIndex = u16 b := rfl

@[simp] theorem SubPieceInfo.make_subpieceIndex (b s : Nat) :
    (make b s).subpieceIndex = u16 s := rfl

/-- The lexicographic `operator <=`. -/
def SubPieceInfo.le (a b : SubPieceInfo) : Bool :=
  a.blockIndex < b.blockIndex || (a.blockIndex == b.blockIndex && a.subpieceIndex ≤ b.subpieceIndex)

theorem SubPieceInfo.le_iff {a b : SubPieceInfo} : a.le b = true ↔
    a.blockIndex < b.blockIndex ∨
      (a.blockIndex = b.blockIndex ∧ a.subpieceIndex ≤ b.subpieceIndex) := by
  simp [SubPieceInfo.le]

/-- `protocol::SubPieceBuffer`: the bytes it views, and what its own `IsValid`
answers for `SUB_PIECE_SIZE`. -/
structure SubPieceBuffer where
  data : Bytes
  isValid : Bool
deriving DecidableEq

def SubPieceBuffer.length (buffer : SubPieceBuffer) : Nat := buffer.data.length

/-- `SubPieceBuffer(content, length)` views the first `length` bytes of a content. -/
def SubPieceBuffer.ofContent (content : Bytes) (length : Nat) : SubPieceBuffer :=
  ⟨content.take length, true⟩

/-- `protocol::RidInfo`. Its three numbers are `boost::uint32_t`. -/
structure RidInfo where
  rid : Guid
  fileLength : Nat
  blockSize : Nat
  blockCount : Nat
  blockMd5s : List Guid
  fileLength_lt : fileLength < 2 ^ 32 := by decide
  blockSize_lt : blockSize < 2 ^ 32 := by decide
  blockCount_lt : blockCount < 2 ^ 32 := by decide
deriving DecidableEq

section Sizes

theorem one_lt_uint32 : 1 < 2 ^ 32 := by decide

theorem two_lt_uint32 : 2 < 2 ^ 32 := by decide

theorem oneKib_lt_uint32 : 1024 < 2 ^ 32 := by decide

theorem twoKib_lt_uint32 : 2048 < 2 ^ 32 := by decide

theorem twoMib_lt_uint32 : 2097152 < 2 ^ 32 := by decide

end Sizes

/-- The geometry of a file cut into blocks: the count is the ceiling of length
over block size, and a block is a whole number of subpieces. -/
structure RidInfo.Valid (r : RidInfo) : Prop where
  blockSize_pos : 0 < r.blockSize
  subpiece_dvd : bytesNumPerSubpiece ∣ r.blockSize
  blockCount_eq : r.blockCount = (r.fileLength + r.blockSize - 1) / r.blockSize

end Storage
