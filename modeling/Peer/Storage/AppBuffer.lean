import Peer.Storage.BlockMapFormat

/-! Buffers that came from outside, and the big-endian numbers in them. -/
namespace Storage

open Basis

/-- `base::AppBuffer`, whose length is a `boost::uint32_t`. -/
structure AppBuffer where
  data : Bytes
  length_lt : data.length < 2 ^ 32

/-- The unsigned integer of big-endian bytes. -/
def beValue (bytes : Bytes) : Nat := leValue bytes.reverse

theorem beValue_lt (bytes : Bytes) : beValue bytes < 256 ^ bytes.length := by
  simpa [beValue] using leValue_lt bytes.reverse

end Storage
