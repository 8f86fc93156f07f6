import Peer.Network.Uri
import Peer.Storage.PositionWalk

/-! RID information read from text: the tiny-drag reply and the play URL. Both
parsers check the syntax of the fields; what a store makes of the numbers is
decided by their relation to each other. -/
namespace P2P

open Storage

/-- The values of a tiny-drag file that `boost::program_options` found. -/
structure TinyDrag where
  n : Option Int32
  h : Option Int32
  r : Option Text
  f : Option Int32
  s : Option Int32
  m : Option Text
deriving DecidableEq

/-- The readers of the libraries: a configuration file, a RID or MD5, and
`framework::string::parse2` of a number. `none` is an exception or an error code. -/
structure TextReaders where
  parseConfigFile : Text → Option TinyDrag
  fromString : Text → Option Guid
  parse2 : Text → Option UInt32

/-- The value of `(int) size` as the bound of a loop that counts from zero. -/
def intBound (size : Nat) : Nat := if u32 size < 2 ^ 31 then u32 size else 0

namespace HttpDragDownloader

variable (readers : TextReaders)

/-- The RID information that `ParseTinyDrag` builds from the values. -/
def ridInfoOf (r : Text) (f s : Int32) (m : Text) : Option RidInfo :=
  match readers.fromString r with
  | none => none
  | some rid =>
    if m.length == 0 then none
    else
      let md5Vec := m.splitOn '@'
      ((md5Vec.take (intBound md5Vec.length)).mapM readers.fromString).map fun blockMd5s =>
        { rid := rid
          fileLength := f.toUInt32.toNat
          blockSize := s.toUInt32.toNat
          blockCount := u32 md5Vec.length
          blockMd5s := blockMd5s
          fileLength_lt := f.toUInt32.toNat_lt
          blockSize_lt := s.toUInt32.toNat_lt
          blockCount_lt := u32_lt _ }

/-- `ParseTinyDrag`: the RID information it passes to `SetRidInfo`. -/
def parseTinyDrag (isRunning : Bool) (dragString : Text) : Option RidInfo :=
  if !isRunning then none
  else
    match readers.parseConfigFile dragString with
    | none => none
    | some vm =>
      match vm.n, vm.r, vm.f, vm.s, vm.m with
      | some _, some r, some f, some s, some m => ridInfoOf readers r f s m
      | _, _, _, _, _ => none

end HttpDragDownloader

namespace PlayInfo

variable (readers : TextReaders)

/-- One MD5 of the list in a play URL, which may not be empty. -/
def blockMd5 (text : Text) : Option Guid :=
  (readers.fromString text).bind fun md5 => if md5 = Guid.zero then none else some md5

/-- `ParseRidInfo`. Only a build with `PEER_PC_CLIENT` reads the MD5s. -/
def parseRidInfo (pcClient : Bool) (uri : Network.Uri) : Option RidInfo :=
  (readers.fromString (uri.getparameterOf "rid".toList)).bind fun rid =>
  (readers.parse2 (uri.getparameterOf "filelength".toList)).bind fun fileLength =>
  (readers.parse2 (uri.getparameterOf "blocksize".toList)).bind fun blockSize =>
  (readers.parse2 (uri.getparameterOf "blocknum".toList)).bind fun blockCount =>
  let withMd5s (blockMd5s : List Guid) : RidInfo :=
    { rid := rid
      fileLength := fileLength.toNat
      blockSize := blockSize.toNat
      blockCount := blockCount.toNat
      blockMd5s := blockMd5s
      fileLength_lt := fileLength.toNat_lt
      blockSize_lt := blockSize.toNat_lt
      blockCount_lt := blockCount.toNat_lt }
  if pcClient then
    let v := (uri.getparameterOf "blockmd5".toList).splitOn '@'
    if blockCount.toNat ≠ v.length then none
    else (v.mapM (blockMd5 readers)).map withMd5s
  else some (withMd5s [])

end PlayInfo

end P2P
