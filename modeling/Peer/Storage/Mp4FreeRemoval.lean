import Peer.Storage.Mp4FreeBoxes
import Peer.Storage.PieceParse

/-! When the walks remove exactly the `free` boxes of a `moov` box. A walk takes the removed
bytes of its counter off the size of a container; they are those of the container only if
none were removed before it. -/
namespace Storage

open Basis

@[simp] theorem beBytes_length (n : Nat) : (beBytes n).length = 4 := by simp [beBytes]

theorem beValue_beBytes {n : Nat} (h : n < 2 ^ 32) : beValue (beBytes n) = n := by
  unfold beValue beBytes
  rw [List.reverse_reverse]
  exact leValue_leBytes h

theorem beBytes_injective {m n : Nat} (hm : m < 2 ^ 32) (hn : n < 2 ^ 32)
    (h : beBytes m = beBytes n) : m = n := by
  rw [← beValue_beBytes hm, h, beValue_beBytes hn]

namespace Mp4Spliter

@[simp] theorem boxType_free_length : (boxType "free").length = 4 := rfl

@[simp] theorem boxType_containerName_length (depth : Nat) :
    (boxType (containerName depth)).length = 4 := by
  unfold containerName
  split <;> rfl

theorem free_ne_container (depth : Nat) : boxType "free" ≠ boxType (containerName depth) := by
  unfold containerName
  split <;> decide

@[simp] theorem boxBytes_length {type : Bytes} (payload : Bytes) (h : type.length = 4) :
    (boxBytes type payload).length = 8 + payload.length := by
  simp only [boxBytes, List.length_append, beBytes_length, h]

namespace Boxes

variable {depth : Nat}

/-- Without the `free` boxes there are as many bytes less as these have. -/
theorem encode_length (boxes : Boxes depth) :
    boxes.encode.length = boxes.withoutFree.encode.length + boxes.removed := by
  induction boxes with
  | nil => rfl
  | free payload rest ih =>
      simp only [encode, withoutFree, removed, List.length_append,
        boxBytes_length payload boxType_free_length, ih]
      omega
  | leaf first rest ih =>
      simp only [encode, withoutFree, removed, List.length_append,
        boxBytes_length _ first.type_length, ih]
      omega
  | container inner rest ihInner ihRest =>
      simp only [encode, withoutFree, removed, List.length_append, boxBytes_length,
        boxType_containerName_length, ihInner, ihRest]
      omega

/-- What `stbl_rmfree` to `trak_rmfree` write, when they have removed `before` bytes. -/
def written {depth : Nat} : Boxes depth → Nat → Bytes
  | .nil, _ => []
  | .free payload rest, before => written rest (before + (8 + payload.length))
  | .leaf first rest, before => boxBytes first.type first.payload ++ written rest before
  | @container inside inner rest, before =>
    beBytes (subU32 (8 + inner.encode.length) (before + inner.removed)) ++
      boxType (containerName inside) ++ written inner 0 ++ written rest (before + inner.removed)

/-- What `moov_rmfree` writes. -/
def moovWritten {depth : Nat} : Boxes depth → Bytes
  | .nil => []
  | .free _ rest => moovWritten rest
  | .leaf first rest => boxBytes first.type first.payload ++ moovWritten rest
  | @container inside inner rest =>
    beBytes (subU32 (8 + inner.encode.length) inner.removed) ++
      boxType (containerName inside) ++ written inner 0 ++ moovWritten rest

/-- The bytes that `moov_rmfree` counts as read. -/
def nestedBytes {depth : Nat} : Boxes depth → Nat
  | .nil => 0
  | .free _ rest => nestedBytes rest
  | .leaf _ rest => nestedBytes rest
  | .container inner rest => 8 + inner.withoutFree.encode.length + nestedBytes rest

theorem written_length (boxes : Boxes depth) (before : Nat) :
    (boxes.written before).length = boxes.withoutFree.encode.length := by
  induction boxes generalizing before with
  | nil => rfl
  | free payload rest ih => exact ih _
  | leaf first rest ih => simp only [written, withoutFree, encode, List.length_append, ih]
  | container inner rest ihInner ihRest =>
      simp only [written, withoutFree, encode, boxBytes, List.length_append, beBytes_length,
        ihInner, ihRest]

end Boxes

/-! ## The walks of the containers -/

section Walks

variable {buf : Bytes} {depth : Nat}

/-- The bytes stand at this position. -/
def At (buf : Bytes) (p : Nat) (bytes : Bytes) : Prop := bytes <+: buf.drop p

namespace At

variable {p : Nat} {a b : Bytes}

theorem left (h : At buf p (a ++ b)) : At buf p a := (List.prefix_append a b).trans h

theorem right (h : At buf p (a ++ b)) : At buf (p + a.length) b := by
  obtain ⟨back, hBack⟩ := h
  refine ⟨back, ?_⟩
  rw [← List.drop_drop, ← hBack, List.append_assoc, List.drop_left]

theorem fits (h : At buf p a) (hSome : a ≠ []) : p + a.length ≤ buf.length := by
  have hLength := h.length_le
  have hPos := List.length_pos_iff.mpr hSome
  rw [List.length_drop] at hLength
  omega

theorem read (h : At buf p a) (hSome : a ≠ []) : Checked.read buf p a.length = .ok a := by
  rw [Checked.read_eq (h.fits hSome), ← List.prefix_iff_eq_take.mp h]

end At

theorem boxBytes_ne_nil (type payload : Bytes) : boxBytes type payload ≠ [] := by
  intro h
  have hLength := congrArg List.length h
  simp [boxBytes] at hLength

/-- The header of a box that stands there. -/
theorem At.header {p : Nat} {type payload : Bytes} (h : At buf p (boxBytes type payload))
    (hType : type.length = 4) (hSize : 8 + payload.length < 2 ^ 32) :
    atomReadHeader buf p = .ok ⟨type, 8 + payload.length, p⟩ := by
  have hSizeAt : At buf p (beBytes (8 + payload.length)) := h.left.left
  have hTypeAt : At buf (p + 4) type := by simpa using h.left.right
  have hSizeRead := hSizeAt.read (by simp [← List.length_pos_iff])
  have hTypeRead := hTypeAt.read (by simp [← List.length_pos_iff, hType])
  unfold atomReadHeader
  rw [hType] at hTypeRead
  rw [beBytes_length] at hSizeRead
  rw [hTypeRead, Checked.ok_bind, hSizeRead, Checked.ok_bind, beValue_beBytes hSize]

/-- What is in a box stands after its header. -/
theorem At.content {p : Nat} {type payload : Bytes} (h : At buf p (boxBytes type payload))
    (hType : type.length = 4) : At buf (p + 8) payload := by
  have hRight := h.right
  rwa [List.length_append, beBytes_length, hType] at hRight

/-- The walk of a container with so many kinds of others inside. -/
def levelWalk (buf : Bytes) : Nat → ContainerWalk
  | 0 => rmfreeBoxes buf (rmfreeRound buf none)
  | inside + 1 =>
    rmfreeBoxes buf (rmfreeRound buf (some (containerName inside, levelWalk buf inside)))

/-- The container that a walk calls for. -/
def nestedWalk (buf : Bytes) : Nat → Option (String × ContainerWalk)
  | 0 => none
  | inside + 1 => some (containerName inside, levelWalk buf inside)

theorem levelWalk_eq (depth : Nat) :
    levelWalk buf depth = rmfreeBoxes buf (rmfreeRound buf (nestedWalk buf depth)) := by
  cases depth <;> rfl

theorem nestedWalk_filter_free (size p : Nat) :
    ((nestedWalk buf depth).filter fun container =>
      Atom.is ⟨boxType "free", size, p⟩ container.1) = none := by
  cases depth with
  | zero => rfl
  | succ inside => simp [nestedWalk, Atom.is, Option.filter, free_ne_container]

theorem nestedWalk_filter_leaf (first : Leaf depth) (size p : Nat) :
    ((nestedWalk buf depth).filter fun container =>
      Atom.is ⟨first.type, size, p⟩ container.1) = none := by
  cases depth with
  | zero => rfl
  | succ inside =>
      simp [nestedWalk, Atom.is, Option.filter, first.type_ne_container inside rfl]

theorem nestedWalk_filter_container (size p : Nat) :
    ((nestedWalk buf (depth + 1)).filter fun container =>
      Atom.is ⟨boxType (containerName depth), size, p⟩ container.1) =
        some (containerName depth, levelWalk buf depth) := by
  simp [nestedWalk, Atom.is, Option.filter]

/-- The room for what a walk copies is enough and not too much for `memcpy2`. -/
theorem copyAtom_eq {p room : Nat} {type payload : Bytes} (h : At buf p (boxBytes type payload))
    (hType : type.length = 4) (hRoom : 8 + payload.length ≤ room) (hMax : room ≤ 0x3FFFFFFF) :
    copyAtom buf room ⟨type, 8 + payload.length, p⟩ = .ok (boxBytes type payload) := by
  have hRead := h.read (boxBytes_ne_nil type payload)
  unfold copyAtom
  rw [boxBytes_length payload hType] at hRead
  rw [if_pos (memcpy2Ok_iff.mpr (Or.inr ⟨hRoom, hMax⟩)), hRead]

/-- A nested container is entered where there is room for it. -/
theorem walkNested_eq {walk : ContainerWalk} {p size readed newLength : Nat} {type : Bytes}
    {result : Option (Bytes × Nat)} (hWalk : walk (p + 8) size = .ok result)
    (hRoom : readed + (8 + size) ≤ newLength) (hMax : newLength ≤ 0x3FFFFFFF) :
    walkNested walk newLength readed ⟨type, 8 + size, p⟩ = .ok result := by
  have hLeft : subU32 newLength (readed + 4) = newLength - (readed + 4) :=
    subU32_of_le (by omega) (by omega)
  have hInside : subU32 (8 + size) 8 = size := by
    rw [subU32_of_le (by omega) (by omega)]
    omega
  unfold walkNested
  rw [u32_of_lt (by omega), if_neg (by omega), hLeft,
    if_pos (memcpy2Ok_iff.mpr (Or.inr ⟨by omega, by omega⟩)), hInside, hWalk]

end Walks

section Rounds

variable {buf : Bytes} {depth newLength : Nat} {s : FreeWalk}

theorem rmfreeRound_free {payload : Bytes} (h : At buf s.buffer (boxBytes (boxType "free") payload))
    (hSize : s.rmSize + (8 + payload.length) < 2 ^ 32) :
    rmfreeRound buf (nestedWalk buf depth) newLength s = .ok (some { s with
      buffer := s.buffer + (8 + payload.length)
      rmSize := s.rmSize + (8 + payload.length) }) := by
  unfold rmfreeRound
  rw [h.header rfl (by omega), Checked.ok_bind, nestedWalk_filter_free, u32_of_lt hSize]
  rfl

theorem rmfreeRound_leaf {first : Leaf depth}
    (h : At buf s.buffer (boxBytes first.type first.payload))
    (hRoom : s.readed + (8 + first.payload.length) ≤ newLength) (hMax : newLength ≤ 0x3FFFFFFF) :
    rmfreeRound buf (nestedWalk buf depth) newLength s = .ok (some { s with
      buffer := s.buffer + (8 + first.payload.length)
      written := s.written ++ boxBytes first.type first.payload
      readed := s.readed + (8 + first.payload.length) }) := by
  have hLeft : subU32 newLength s.readed = newLength - s.readed :=
    subU32_of_le (by omega) (by omega)
  unfold rmfreeRound
  rw [h.header first.type_length (by omega), Checked.ok_bind, nestedWalk_filter_leaf]
  dsimp only
  rw [if_neg (by simp [Atom.is, first.type_ne_free]), u32_of_lt (by omega), if_neg (by omega),
    hLeft, copyAtom_eq h first.type_length (by omega) (by omega)]
  rfl

theorem rmfreeRound_container {removed : Nat} {payload content : Bytes}
    (h : At buf s.buffer (boxBytes (boxType (containerName depth)) payload))
    (hWalk : levelWalk buf depth (s.buffer + 8) payload.length = .ok (some (content, removed)))
    (hRoom : s.readed + (8 + payload.length) ≤ newLength) (hMax : newLength ≤ 0x3FFFFFFF)
    (hSize : s.rmSize + removed < 2 ^ 32) :
    rmfreeRound buf (nestedWalk buf (depth + 1)) newLength s = .ok (some { s with
      buffer := s.buffer + (8 + payload.length)
      written := s.written ++ (beBytes (subU32 (8 + payload.length) (s.rmSize + removed)) ++
        boxType (containerName depth) ++ content)
      rmSize := s.rmSize + removed
      readed := s.readed + (8 + content.length) }) := by
  unfold rmfreeRound
  rw [h.header (boxType_containerName_length depth) (by omega), Checked.ok_bind,
    nestedWalk_filter_container]
  dsimp only
  rw [walkNested_eq hWalk hRoom hMax, Checked.ok_bind]
  dsimp only
  rw [u32_of_lt hSize]
  rfl

theorem moovRound_free {payload : Bytes} (h : At buf s.buffer (boxBytes (boxType "free") payload))
    (hSize : s.rmSize + (8 + payload.length) < 2 ^ 32) :
    moovRound buf (nestedWalk buf depth) newLength s = .ok (some { s with
      buffer := s.buffer + (8 + payload.length)
      rmSize := s.rmSize + (8 + payload.length)
      usedSize := s.usedSize + (8 + payload.length) }) := by
  unfold moovRound
  rw [h.header rfl (by omega), Checked.ok_bind, nestedWalk_filter_free, u32_of_lt hSize]
  rfl

theorem moovRound_leaf {first : Leaf depth}
    (h : At buf s.buffer (boxBytes first.type first.payload)) (hRead : s.readed ≤ s.usedSize)
    (hRoom : s.usedSize + (8 + first.payload.length) ≤ newLength)
    (hMax : newLength ≤ 0x3FFFFFFF) :
    moovRound buf (nestedWalk buf depth) newLength s = .ok (some { s with
      buffer := s.buffer + (8 + first.payload.length)
      written := s.written ++ boxBytes first.type first.payload
      usedSize := s.usedSize + (8 + first.payload.length) }) := by
  have hLeft : subU32 newLength s.readed = newLength - s.readed :=
    subU32_of_le (by omega) (by omega)
  have hUnused : subU32 newLength s.usedSize = newLength - s.usedSize :=
    subU32_of_le (by omega) (by omega)
  unfold moovRound
  rw [h.header first.type_length (by omega), Checked.ok_bind, nestedWalk_filter_leaf]
  dsimp only
  rw [if_neg (by simp [Atom.is, first.type_ne_free]), hUnused, if_neg (by omega), hLeft,
    copyAtom_eq h first.type_length (by omega) (by omega)]
  rfl

theorem moovRound_container {removed : Nat} {payload content : Bytes}
    (h : At buf s.buffer (boxBytes (boxType (containerName depth)) payload))
    (hWalk : levelWalk buf depth (s.buffer + 8) payload.length = .ok (some (content, removed)))
    (hRoom : s.readed + (8 + payload.length) ≤ newLength) (hMax : newLength ≤ 0x3FFFFFFF)
    (hSize : s.rmSize + removed < 2 ^ 32) :
    moovRound buf (nestedWalk buf (depth + 1)) newLength s = .ok (some
      { buffer := s.buffer + (8 + payload.length)
        written := s.written ++ (beBytes (subU32 (8 + payload.length) removed) ++
          boxType (containerName depth) ++ content)
        rmSize := s.rmSize + removed
        readed := s.readed + (8 + content.length)
        usedSize := s.usedSize + (8 + payload.length) }) := by
  unfold moovRound
  rw [h.header (boxType_containerName_length depth) (by omega), Checked.ok_bind,
    nestedWalk_filter_container]
  dsimp only
  rw [walkNested_eq hWalk hRoom hMax, Checked.ok_bind]
  dsimp only
  rw [u32_of_lt hSize]
  rfl

end Rounds

section Runs

variable {buf : Bytes} {depth : Nat}

theorem rmfreeLoop_succ {round : FreeWalk → Checked (Option FreeWalk)} {stop rounds : Nat}
    {s t : FreeWalk} (hLt : s.buffer < stop) (hRound : round s = .ok (some t)) :
    rmfreeLoop round stop (rounds + 1) s = rmfreeLoop round stop rounds t := by
  rw [rmfreeLoop, if_pos hLt, hRound]
  rfl

theorem rmfreeLoop_end {round : FreeWalk → Checked (Option FreeWalk)} {stop rounds : Nat}
    {s : FreeWalk} (hEnd : s.buffer = stop) (hRounds : 0 < rounds) :
    rmfreeLoop round stop rounds s = .ok (some s) := by
  obtain ⟨rounds, rfl⟩ := Nat.exists_eq_add_one_of_ne_zero hRounds.ne'
  rw [rmfreeLoop, if_neg (by omega)]

/-- What the loop over the boxes of a container has done at their end. -/
def FreeWalk.after (s : FreeWalk) (boxes : Boxes depth) : FreeWalk :=
  { s with
    buffer := s.buffer + boxes.encode.length
    written := s.written ++ boxes.written s.rmSize
    rmSize := s.rmSize + boxes.removed
    readed := s.readed + boxes.withoutFree.encode.length }

/-- Wherever the boxes stand with room for their copies, the loop comes to their end. -/
def Walked (buf : Bytes) (boxes : Boxes depth) : Prop :=
  ∀ (s : FreeWalk) (newLength stop rounds : Nat), At buf s.buffer boxes.encode →
    s.buffer + boxes.encode.length = stop → s.readed + boxes.encode.length ≤ newLength →
    newLength ≤ 0x3FFFFFFF → s.rmSize + boxes.encode.length < 2 ^ 32 →
    boxes.encode.length < rounds →
    rmfreeLoop (rmfreeRound buf (nestedWalk buf depth) newLength) stop rounds s =
      .ok (some (s.after boxes))

namespace Walked

variable {inside : Nat} {inner : Boxes inside} {rest : Boxes depth}

theorem nil : Walked buf (@Boxes.nil depth) := by
  intro s newLength stop rounds _ hStop _ _ _ hRounds
  rw [rmfreeLoop_end hStop (by omega)]
  simp [FreeWalk.after, Boxes.encode, Boxes.written, Boxes.removed, Boxes.withoutFree]

theorem free (h : Walked buf rest) (payload : Bytes) : Walked buf (.free payload rest) := by
  intro s newLength stop rounds hAt hStop hRoom hMax hSize hRounds
  obtain ⟨rounds, rfl⟩ := Nat.exists_eq_add_one_of_ne_zero (Nat.ne_zero_of_lt hRounds)
  have hBox := boxBytes_length payload boxType_free_length
  have hRest := At.right hAt
  rw [hBox] at hRest
  simp only [Boxes.encode, List.length_append, hBox] at hStop hRoom hSize hRounds ⊢
  rw [rmfreeLoop_succ (by omega) (rmfreeRound_free (At.left hAt) (by omega)),
    h _ _ _ _ hRest (by dsimp only; omega) (by dsimp only; omega) hMax (by dsimp only; omega)
      (by omega)]
  simp [FreeWalk.after, Boxes.encode, Boxes.written, Boxes.removed, Boxes.withoutFree, hBox,
    Nat.add_assoc]

theorem leaf (h : Walked buf rest) (first : Leaf depth) : Walked buf (.leaf first rest) := by
  intro s newLength stop rounds hAt hStop hRoom hMax hSize hRounds
  obtain ⟨rounds, rfl⟩ := Nat.exists_eq_add_one_of_ne_zero (Nat.ne_zero_of_lt hRounds)
  have hBox := boxBytes_length first.payload first.type_length
  have hRest := At.right hAt
  rw [hBox] at hRest
  simp only [Boxes.encode, List.length_append, hBox] at hStop hRoom hSize hRounds ⊢
  rw [rmfreeLoop_succ (by omega) (rmfreeRound_leaf (At.left hAt) (by omega) hMax),
    h _ _ _ _ hRest (by dsimp only; omega) (by dsimp only; omega) hMax (by dsimp only; omega)
      (by omega)]
  simp [FreeWalk.after, Boxes.encode, Boxes.written, Boxes.removed, Boxes.withoutFree, hBox,
    Nat.add_assoc]

/-- What the walk of a container returns. -/
theorem levelWalk_eq (h : Walked buf inner) {p : Nat} (hAt : At buf p inner.encode)
    (hFits : inner.encode.length ≤ buf.length) (hMax : inner.encode.length ≤ 0x3FFFFFFF) :
    levelWalk buf inside p inner.encode.length = .ok (some (inner.written 0, inner.removed)) := by
  have hLoop := h ⟨p, [], 0, 0, 0⟩ inner.encode.length (p + inner.encode.length) (buf.length + 1)
    hAt rfl (by dsimp only; omega) hMax (by dsimp only; omega) (by omega)
  rw [Mp4Spliter.levelWalk_eq]
  unfold rmfreeBoxes
  rw [hLoop]
  simp [FreeWalk.after]

theorem container {rest : Boxes (inside + 1)} (hInner : Walked buf inner) (h : Walked buf rest) :
    Walked buf (.container inner rest) := by
  intro s newLength stop rounds hAt hStop hRoom hMax hSize hRounds
  obtain ⟨rounds, rfl⟩ := Nat.exists_eq_add_one_of_ne_zero (Nat.ne_zero_of_lt hRounds)
  have hBox := boxBytes_length inner.encode (boxType_containerName_length inside)
  have hBoxAt := At.left hAt
  have hRest := At.right hAt
  have hFits := hBoxAt.fits (boxBytes_ne_nil _ _)
  have hLength := inner.encode_length
  rw [hBox] at hRest hFits
  simp only [Boxes.encode, List.length_append, hBox] at hStop hRoom hSize hRounds ⊢
  have hWalk := hInner.levelWalk_eq (hBoxAt.content (boxType_containerName_length inside))
    (by omega) (by omega)
  rw [rmfreeLoop_succ (by omega) (rmfreeRound_container hBoxAt hWalk (by omega) hMax (by omega)),
    h _ _ _ _ hRest (by dsimp only; omega) (by dsimp only; rw [inner.written_length]; omega) hMax
      (by dsimp only; omega) (by omega)]
  simp [FreeWalk.after, Boxes.encode, Boxes.written, Boxes.removed, Boxes.withoutFree, hBox,
    Nat.add_assoc, inner.written_length]

end Walked

/-- So it is for all trees of boxes. -/
theorem walked (boxes : Boxes depth) : Walked buf boxes := by
  induction boxes with
  | nil => exact Walked.nil
  | free payload rest ih => exact ih.free payload
  | leaf first rest ih => exact ih.leaf first
  | container inner rest ihInner ihRest => exact ihInner.container ihRest

/-- What the loop of `moov_rmfree` has done at the end of the boxes. -/
def FreeWalk.moovAfter (s : FreeWalk) (boxes : Boxes depth) : FreeWalk where
  buffer := s.buffer + boxes.encode.length
  written := s.written ++ boxes.moovWritten
  rmSize := s.rmSize + boxes.removed
  readed := s.readed + boxes.nestedBytes
  usedSize := s.usedSize + boxes.encode.length

theorem moovLoop_eq (boxes : Boxes depth) {s : FreeWalk} {oldSize stop rounds : Nat}
    (hAt : At buf s.buffer boxes.encode) (hStop : s.buffer + boxes.encode.length = stop)
    (hRead : s.readed ≤ s.usedSize) (hRoom : s.usedSize + boxes.encode.length ≤ oldSize)
    (hMax : oldSize ≤ 0x3FFFFFFF) (hSize : s.rmSize + boxes.encode.length < 2 ^ 32)
    (hRounds : boxes.encode.length < rounds) :
    rmfreeLoop (moovRound buf (nestedWalk buf depth) oldSize) stop rounds s =
      .ok (some (s.moovAfter boxes)) := by
  obtain ⟨rounds, rfl⟩ := Nat.exists_eq_add_one_of_ne_zero (Nat.ne_zero_of_lt hRounds)
  induction boxes generalizing s rounds with
  | nil =>
      rw [rmfreeLoop_end hStop (by omega)]
      simp [FreeWalk.moovAfter, Boxes.encode, Boxes.moovWritten, Boxes.removed, Boxes.nestedBytes]
  | free payload rest ih =>
      have hBox := boxBytes_length payload boxType_free_length
      have hRest := At.right hAt
      rw [hBox] at hRest
      simp only [Boxes.encode, List.length_append, hBox] at hStop hRoom hSize hRounds
      obtain ⟨rounds, rfl⟩ : ∃ n, rounds = n + 1 := ⟨rounds - 1, by omega⟩
      rw [rmfreeLoop_succ (by omega) (moovRound_free (At.left hAt) (by omega)),
        ih hRest (by dsimp only; omega) (by dsimp only; omega) (by dsimp only; omega)
          (by dsimp only; omega) _ (by omega)]
      simp [FreeWalk.moovAfter, Boxes.encode, Boxes.moovWritten, Boxes.removed, Boxes.nestedBytes,
        hBox, Nat.add_assoc]
  | leaf first rest ih =>
      have hBox := boxBytes_length first.payload first.type_length
      have hRest := At.right hAt
      rw [hBox] at hRest
      simp only [Boxes.encode, List.length_append, hBox] at hStop hRoom hSize hRounds
      obtain ⟨rounds, rfl⟩ : ∃ n, rounds = n + 1 := ⟨rounds - 1, by omega⟩
      rw [rmfreeLoop_succ (by omega) (moovRound_leaf (At.left hAt) hRead (by omega) hMax),
        ih hRest (by dsimp only; omega) (by dsimp only; omega) (by dsimp only; omega)
          (by dsimp only; omega) _ (by omega)]
      simp [FreeWalk.moovAfter, Boxes.encode, Boxes.moovWritten, Boxes.removed, Boxes.nestedBytes,
        hBox, Nat.add_assoc]
  | @container inside inner rest _ ih =>
      have hBox := boxBytes_length inner.encode (boxType_containerName_length inside)
      have hBoxAt := At.left hAt
      have hRest := At.right hAt
      have hFits := hBoxAt.fits (boxBytes_ne_nil _ _)
      have hLength := inner.encode_length
      have hWritten := inner.written_length 0
      rw [hBox] at hRest hFits
      simp only [Boxes.encode, List.length_append, hBox] at hStop hRoom hSize hRounds
      obtain ⟨rounds, rfl⟩ : ∃ n, rounds = n + 1 := ⟨rounds - 1, by omega⟩
      have hWalk := (walked inner).levelWalk_eq
        (hBoxAt.content (boxType_containerName_length inside)) (by omega) (by omega)
      rw [rmfreeLoop_succ (by omega)
          (moovRound_container hBoxAt hWalk (by omega) hMax (by omega)),
        ih hRest (by dsimp only; omega) (by dsimp only; omega) (by dsimp only; omega)
          (by dsimp only; omega) _ (by omega)]
      simp [FreeWalk.moovAfter, Boxes.encode, Boxes.moovWritten, Boxes.removed, Boxes.nestedBytes,
        hBox, hWritten, Nat.add_assoc]

end Runs

/-! ## The rewritten sizes -/

/-- A size is right exactly if nothing was removed before. -/
theorem size_eq_iff {size removed before : Nat} (hSize : size < 2 ^ 32) (hLe : removed ≤ size)
    (hFits : before + removed < 2 ^ 32) :
    beBytes (subU32 size (before + removed)) = beBytes (size - removed) ↔ before = 0 := by
  constructor
  · intro h
    have hEq := beBytes_injective (by simp only [subU32]; exact u32_lt _) (by omega) h
    simp only [subU32, u32] at hEq
    omega
  · rintro rfl
    rw [Nat.zero_add, subU32_of_le hSize hLe]

/-- Boxes with as many bytes inside are equal if their parts are. -/
theorem box_append_eq_iff {m n : Nat} {type a b c d : Bytes} (h : a.length = b.length) :
    beBytes m ++ type ++ a ++ c = beBytes n ++ type ++ b ++ d ↔
      beBytes m = beBytes n ∧ a = b ∧ c = d := by
  constructor
  · intro hEq
    obtain ⟨hBox, hRest⟩ := List.append_inj hEq (by simp [h])
    obtain ⟨hHead, hInside⟩ := List.append_inj' hBox h
    exact ⟨List.append_cancel_right hHead, hInside, hRest⟩
  · rintro ⟨hSize, rfl, rfl⟩
    rw [hSize]

section Written

variable {depth : Nat}

theorem written_eq_iff (boxes : Boxes depth) {before : Nat}
    (hSize : before + boxes.encode.length < 2 ^ 32) :
    boxes.written before = boxes.withoutFree.encode ↔ boxes.FreeBehind before := by
  induction boxes generalizing before with
  | nil => simp [Boxes.written, Boxes.withoutFree, Boxes.encode, Boxes.FreeBehind]
  | free payload rest ih =>
      simp only [Boxes.encode, List.length_append,
        boxBytes_length payload boxType_free_length] at hSize
      exact ih (by omega)
  | leaf first rest ih =>
      simp only [Boxes.encode, List.length_append,
        boxBytes_length first.payload first.type_length] at hSize
      simp only [Boxes.written, Boxes.withoutFree, Boxes.encode, Boxes.FreeBehind,
        List.append_cancel_left_eq]
      exact ih (by omega)
  | container inner rest ihInner ihRest =>
      have hLength := inner.encode_length
      simp only [Boxes.encode, List.length_append, boxBytes_length,
        boxType_containerName_length] at hSize
      have hNew : 8 + inner.withoutFree.encode.length = 8 + inner.encode.length - inner.removed := by
        omega
      simp only [Boxes.written, Boxes.withoutFree, Boxes.encode, Boxes.FreeBehind, boxBytes]
      rw [box_append_eq_iff (inner.written_length 0), hNew,
        size_eq_iff (by omega) (by omega) (by omega), ihInner (by omega), ihRest (by omega)]

/-- `moov_rmfree` takes off the size of a track what its walk has removed. -/
theorem moovWritten_eq_iff (boxes : Boxes depth) (hSize : boxes.encode.length < 2 ^ 32) :
    boxes.moovWritten = boxes.withoutFree.encode ↔ boxes.InnerFreeBehind := by
  induction boxes with
  | nil => simp [Boxes.moovWritten, Boxes.withoutFree, Boxes.encode, Boxes.InnerFreeBehind]
  | free payload rest ih =>
      simp only [Boxes.encode, List.length_append,
        boxBytes_length payload boxType_free_length] at hSize
      exact ih (by omega)
  | leaf first rest ih =>
      simp only [Boxes.encode, List.length_append,
        boxBytes_length first.payload first.type_length] at hSize
      simp only [Boxes.moovWritten, Boxes.withoutFree, Boxes.encode, Boxes.InnerFreeBehind,
        List.append_cancel_left_eq]
      exact ih (by omega)
  | container inner rest _ ih =>
      have hLength := inner.encode_length
      simp only [Boxes.encode, List.length_append, boxBytes_length,
        boxType_containerName_length] at hSize
      have hNew : subU32 (8 + inner.encode.length) inner.removed =
          8 + inner.withoutFree.encode.length := by
        rw [subU32_of_le (by omega) (by omega)]
        omega
      simp only [Boxes.moovWritten, Boxes.withoutFree, Boxes.encode, Boxes.InnerFreeBehind,
        boxBytes]
      rw [box_append_eq_iff (inner.written_length 0), hNew, written_eq_iff inner (by omega),
        ih (by omega)]
      simp only [true_and]

end Written

/-- What `rm_freeatom` makes of the bytes of a `moov` box. -/
theorem rmFreeatom_eq (boxes : Boxes 4) (hFits : (moovBytes boxes).length ≤ 0x40000003) :
    rmFreeatom (moovBytes boxes) = .ok (some (beBytes (8 + boxes.withoutFree.encode.length) ++
      boxType "moov" ++ boxes.moovWritten)) := by
  have hLength : (moovBytes boxes).length = 8 + boxes.encode.length := boxBytes_length _ rfl
  have hSum := boxes.encode_length
  have hAt : At (moovBytes boxes) 8 boxes.encode :=
    At.content (show At (moovBytes boxes) 0 (boxBytes _ _) from List.prefix_refl _) rfl
  have hInside : (moovBytes boxes).length - 8 = boxes.encode.length := by omega
  have hRoom : subU32 (moovBytes boxes).length 4 = (moovBytes boxes).length - 4 :=
    subU32_of_le (by omega) (by omega)
  have hNew : subU32 (moovBytes boxes).length boxes.removed =
      8 + boxes.withoutFree.encode.length := by
    rw [subU32_of_le (by omega) (by omega)]
    omega
  have hWalk : moovRmfree (moovBytes boxes) 8 boxes.encode.length =
      .ok (some (boxes.moovWritten, boxes.removed)) := by
    have hLoop := moovLoop_eq boxes (s := ⟨8, [], 0, 0, 0⟩) hAt rfl (Nat.le_refl 0)
      (Nat.le_of_eq (Nat.zero_add _)) (by omega) (by dsimp only; omega)
      (show boxes.encode.length < (moovBytes boxes).length + 1 by omega)
    change rmfreeBoxes _ (moovRound _ (nestedWalk _ 4)) 8 _ = _
    unfold rmfreeBoxes
    rw [hLoop]
    simp [FreeWalk.moovAfter]
  unfold rmFreeatom
  rw [hRoom, if_pos (memcpy2Ok_iff.mpr (Or.inr ⟨by omega, by omega⟩)), hInside, hWalk,
    Checked.ok_bind]
  dsimp only
  rw [hNew]

/-- A box for which `memcpy2` refuses the copy of its type. -/
theorem rmFreeatom_aborts (boxes : Boxes 4) (hSize : (moovBytes boxes).length < 2 ^ 32)
    (hLong : ¬ (moovBytes boxes).length ≤ 0x40000003) :
    rmFreeatom (moovBytes boxes) = .error .copyAborts := by
  unfold rmFreeatom
  rw [subU32_of_le hSize (by omega), if_neg]
  intro hOk
  rcases memcpy2Ok_iff.mp hOk with hZero | ⟨-, hLe⟩ <;> omega

/-- The new buffer is the same box without its `free` boxes, and so many bytes shorter. -/
structure RemovesFree (boxes : Boxes 4) : Prop where
  tree : rmFreeatom (moovBytes boxes) = .ok (some (moovBytes boxes.withoutFree))
  length : (moovBytes boxes.withoutFree).length = (moovBytes boxes).length - boxes.removed

/-- The box has a size that `memcpy2` copies from, and inside its tracks no `free` box comes
before a container. -/
theorem removesFree_iff (boxes : Boxes 4) (hSize : (moovBytes boxes).length < 2 ^ 32) :
    RemovesFree boxes ↔
      (moovBytes boxes).length ≤ 0x40000003 ∧ boxes.InnerFreeBehind := by
  have hLength : (moovBytes boxes).length = 8 + boxes.encode.length := boxBytes_length _ rfl
  have hNewLength : (moovBytes boxes.withoutFree).length = 8 + boxes.withoutFree.encode.length :=
    boxBytes_length _ rfl
  have hSum := boxes.encode_length
  by_cases hFits : (moovBytes boxes).length ≤ 0x40000003
  · have hIff := moovWritten_eq_iff boxes (by omega)
    have hResult := rmFreeatom_eq boxes hFits
    constructor
    · intro h
      have hEq := hResult.symm.trans h.tree
      simp only [Except.ok.injEq, Option.some.injEq, moovBytes, boxBytes,
        List.append_cancel_left_eq] at hEq
      exact ⟨hFits, hIff.mp hEq⟩
    · rintro ⟨-, hBehind⟩
      refine ⟨?_, by omega⟩
      rw [hResult, hIff.mpr hBehind]
      rfl
  · constructor
    · intro h
      have hTree := h.tree
      rw [rmFreeatom_aborts boxes hSize hFits] at hTree
      cases hTree
    · rintro ⟨hLe, -⟩
      exact absurd hLe hFits

/-- A track with a `free` box behind its `mdia`. -/
def freeBehindMedia : Boxes 4 := .container (.container .nil (.free [] .nil)) .nil

theorem removesFree_iff_freeBehindMedia : RemovesFree freeBehindMedia :=
  (removesFree_iff freeBehindMedia (by decide)).mpr
    ⟨by decide, by simp [freeBehindMedia, Boxes.InnerFreeBehind, Boxes.FreeBehind]⟩

/-- A track with a `free` box before its `mdia`, which then has the size 0. -/
def freeBeforeMedia : Boxes 4 := .container (.free [] (.container .nil .nil)) .nil

theorem removesFree_fails :
    ¬ ∀ boxes : Boxes 4, (moovBytes boxes).length < 2 ^ 32 → RemovesFree boxes := by
  intro hAll
  have hTree := (hAll freeBeforeMedia (by decide)).tree
  have hOther : rmFreeatom (moovBytes freeBeforeMedia) ≠
      .ok (some (moovBytes freeBeforeMedia.withoutFree)) := by decide +kernel
  exact hOther hTree

end Mp4Spliter

end Storage
