import Peer.Basis.Fields
import Peer.Network.Uri
import Peer.P2P.RidInfoEntry
import Peer.P2P.TextSearch

/-! The streams of a live channel: the play URL has their RIDs and their data rates in two
lists, with an '@' between the fields. -/
namespace Proxy

open Basis P2P Storage Network

/-- What the libraries make of a field: `from_string` of a RID and `parse2` of a number, where
`none` is an error code, and what they leave in a cleared RID and in a number on an error. -/
structure FieldReaders where
  fromString : Text → Option Guid
  ridLeft : Text → Guid
  parse2 : Text → Option Int32
  rateLeft : Text → Int32 → Int32

/-- The `PlayInfo` of a live request, with the lists of its streams. -/
structure LivePlayInfo where
  liveRids : List Guid
  dataRates : List UInt32

namespace PlayInfo

variable (readers : FieldReaders)

/-- The loop of `ParseLiveRids`. A RID is read from the first 32 characters of what is left. -/
def liveRidsLoop (strRids : Text) (rids : List Guid) : List Guid :=
  match _hFind : Text.find strRids '@' 0 with
  | some pos =>
    match readers.fromString (Text.substr strRids 0 32) with
    | none => rids
    | some rid => liveRidsLoop (strRids.drop (pos + 1)) (rids ++ [rid])
  | none =>
    let text := Text.substr strRids 0 32
    rids ++ [(readers.fromString text).getD (readers.ridLeft text)]
termination_by strRids.length
decreasing_by
  have hLt := Text.lt_of_find _hFind
  rw [List.length_drop]
  omega

def parseLiveRids (uri : Network.Uri) : List Guid :=
  liveRidsLoop readers (uri.getparameterOf "rid".toList) []

/-- The loop of `ParseLiveDataRates`, where an error leaves something in `data_rate`. -/
def liveDataRatesLoop (strDatarates : Text) (dataRate : Int32) (dataRates : List UInt32) :
    List UInt32 :=
  match _hFind : Text.find strDatarates '@' 0 with
  | some pos =>
    match readers.parse2 (Text.substr strDatarates 0 pos) with
    | none => dataRates
    | some dataRate =>
      liveDataRatesLoop (strDatarates.drop (pos + 1)) dataRate (dataRates ++ [dataRate.toUInt32])
  | none =>
    dataRates ++
      [((readers.parse2 strDatarates).getD (readers.rateLeft strDatarates dataRate)).toUInt32]
termination_by strDatarates.length
decreasing_by
  have hLt := Text.lt_of_find _hFind
  rw [List.length_drop]
  omega

def parseLiveDataRates (uri : Network.Uri) : List UInt32 :=
  liveDataRatesLoop readers (uri.getparameterOf "datarate".toList) 0 []

/-- The branch of `Parse` for a live request, as far as its streams go. -/
def parseLive (uri : Network.Uri) : Option LivePlayInfo :=
  let rids := parseLiveRids readers uri
  let dataRates := parseLiveDataRates readers uri
  if rids.length ≠ dataRates.length then none else some ⟨rids, dataRates⟩

/-! ## The fields -/

def ridFields (uri : Network.Uri) : List Text := (uri.getparameterOf "rid".toList).splitOn '@'

def dataRateFields (uri : Network.Uri) : List Text :=
  (uri.getparameterOf "datarate".toList).splitOn '@'

/-- The RID of a field of 32 digits. -/
def ridOf (field : Text) : Option Guid :=
  if field.length = 32 then readers.fromString field else none

/-- The integer of a field, as a data rate. -/
def dataRateOf (field : Text) : Option UInt32 := (readers.parse2 field).map Int32.toUInt32

/-- The streams of the result are those of the URL, position by position. -/
structure ChannelsRight (uri : Network.Uri) (info : LivePlayInfo) : Prop where
  rids : (ridFields uri).map (ridOf readers) = info.liveRids.map some
  dataRates : (dataRateFields uri).map (dataRateOf readers) = info.dataRates.map some
  sameNumber : (ridFields uri).length = (dataRateFields uri).length

/-- What `ParseLiveRids` takes for a RID: a field that begins with one. -/
def ridBegins (field : Text) : Option Guid :=
  if 32 ≤ field.length then readers.fromString (field.take 32) else none

/-- No field of the URL is malformed. -/
def AllWellFormed (uri : Network.Uri) : Prop :=
  (∀ field ∈ ridFields uri, (ridOf readers field).isSome) ∧
    ∀ field ∈ dataRateFields uri, (dataRateOf readers field).isSome

section Loops

variable {readers}

/-- The text at its first '@'. -/
theorem split_cases (text : Text) : ('@' ∉ text ∧ Text.find text '@' 0 = none ∧
    text.splitOn '@' = [text]) ∨ ∃ field rest, '@' ∉ field ∧ text = field ++ '@' :: rest ∧
      Text.find text '@' 0 = some field.length ∧
        text.splitOn '@' = field :: rest.splitOn '@' := by
  by_cases h : '@' ∈ text
  · obtain ⟨field, rest, rfl, hNotMem⟩ := List.eq_append_cons_of_mem h
    refine Or.inr ⟨field, rest, hNotMem, rfl, ?_, ?_⟩
    · simpa using Text.find_split hNotMem [] rest
    · rw [List.splitOn_append_cons_self, List.splitOn_eq_singleton hNotMem]
      rfl
  · refine Or.inl ⟨h, ?_, List.splitOn_eq_singleton h⟩
    have hAbsent : Text.find ([] ++ text) '@' 0 = none := Text.find_absent h
    exact hAbsent

/-- The first 32 characters go on behind a short field, and then have the '@'. -/
theorem fromString_begin (hAt : ∀ text, '@' ∈ text → readers.fromString text = none)
    (field rest : Text) :
    readers.fromString (Text.substr (field ++ '@' :: rest) 0 32) = ridBegins readers field := by
  unfold ridBegins Text.substr
  rw [List.drop_zero]
  split_ifs with hLong
  · rw [List.take_append_of_le_length hLong]
  · apply hAt
    rw [List.take_append]
    have hPos : 0 < 32 - field.length := by omega
    obtain ⟨k, hk⟩ := Nat.exists_eq_succ_of_ne_zero hPos.ne'
    rw [hk]
    simp

/-- What the last field gives. -/
def lastRid (readers : FieldReaders) (_ : Guid) (field : Text) : Guid :=
  (readers.fromString (field.take 32)).getD (readers.ridLeft (field.take 32))

/-- The loop reads the fields until one is malformed. -/
theorem liveRidsLoop_eq (hAt : ∀ text, '@' ∈ text → readers.fromString text = none)
    (strRids : Text) (rids : List Guid) (prev : Guid) : liveRidsLoop readers strRids rids =
      rids ++ readUntilBad (ridBegins readers) (lastRid readers) prev (strRids.splitOn '@') := by
  induction hLength : strRids.length using Nat.strong_induction_on generalizing strRids rids prev with
  | _ n ih =>
      rcases split_cases strRids with ⟨-, hFind, hFields⟩ | ⟨field, rest, -, rfl, hFind, hFields⟩
      · rw [liveRidsLoop, hFields]
        split
        · rename_i hSome
          rw [hFind] at hSome
          cases hSome
        · rfl
      · obtain ⟨next, fields, hRest⟩ :=
          List.exists_cons_of_ne_nil (List.splitOn_ne_nil '@' rest)
        rw [liveRidsLoop, hFields, hRest, readUntilBad]
        split
        · rename_i pos hSome
          obtain rfl := Option.some.inj (hFind.symm.trans hSome)
          rw [fromString_begin hAt]
          cases hRead : ridBegins readers field with
          | none => simp
          | some rid =>
              have hDrop : (field ++ '@' :: rest).drop (field.length + 1) = rest := by simp
              have hShort : rest.length < n := by
                rw [← hLength]
                simp
                omega
              dsimp only
              rw [hDrop, ih _ hShort rest (rids ++ [rid]) rid rfl, hRest]
              simp
        · rename_i hNone
          rw [hFind] at hNone
          cases hNone

/-- What the last field gives when a rate was read before. -/
def lastRate (readers : FieldReaders) (dataRate : Int32) (field : Text) : Int32 :=
  (readers.parse2 field).getD (readers.rateLeft field dataRate)

theorem liveDataRatesLoop_eq (strDatarates : Text) (dataRate : Int32) (dataRates : List UInt32) :
    liveDataRatesLoop readers strDatarates dataRate dataRates =
      dataRates ++ (readUntilBad readers.parse2 (lastRate readers) dataRate
        (strDatarates.splitOn '@')).map Int32.toUInt32 := by
  induction hLength : strDatarates.length using Nat.strong_induction_on
    generalizing strDatarates dataRate dataRates with
  | _ n ih =>
      rcases split_cases strDatarates with
        ⟨-, hFind, hFields⟩ | ⟨field, rest, -, rfl, hFind, hFields⟩
      · rw [liveDataRatesLoop, hFields]
        split
        · rename_i hSome
          rw [hFind] at hSome
          cases hSome
        · rfl
      · obtain ⟨next, fields, hRest⟩ :=
          List.exists_cons_of_ne_nil (List.splitOn_ne_nil '@' rest)
        rw [liveDataRatesLoop, hFields, hRest, readUntilBad]
        split
        · rename_i pos hSome
          obtain rfl := Option.some.inj (hFind.symm.trans hSome)
          have hField : Text.substr (field ++ '@' :: rest) 0 field.length = field := by
            simpa using Text.substr_split [] field ('@' :: rest)
          rw [hField]
          cases hRead : readers.parse2 field with
          | none => simp
          | some rate =>
              have hDrop : (field ++ '@' :: rest).drop (field.length + 1) = rest := by simp
              have hShort : rest.length < n := by
                rw [← hLength]
                simp
                omega
              dsimp only
              rw [hDrop, ih _ hShort rest rate (dataRates ++ [rate.toUInt32]) rfl, hRest]
              simp
        · rename_i hNone
          rw [hFind] at hNone
          cases hNone

theorem parseLiveRids_eq (hAt : ∀ text, '@' ∈ text → readers.fromString text = none)
    (uri : Network.Uri) (prev : Guid) : parseLiveRids readers uri =
      readUntilBad (ridBegins readers) (lastRid readers) prev (ridFields uri) :=
  liveRidsLoop_eq hAt _ [] prev

theorem parseLiveDataRates_eq (uri : Network.Uri) : parseLiveDataRates readers uri =
    (readUntilBad readers.parse2 (lastRate readers) 0 (dataRateFields uri)).map Int32.toUInt32 :=
  liveDataRatesLoop_eq _ 0 []

/-- Something is returned if the two lists are read up to the same place. -/
theorem parseLive_eq (hAt : ∀ text, '@' ∈ text → readers.fromString text = none)
    (uri : Network.Uri) : parseLive readers uri =
      if fieldsRead (ridBegins readers) (ridFields uri) =
          fieldsRead readers.parse2 (dataRateFields uri) then
        some ⟨parseLiveRids readers uri, parseLiveDataRates readers uri⟩ else none := by
  unfold parseLive
  dsimp only
  rw [show (parseLiveRids readers uri).length =
      fieldsRead (ridBegins readers) (ridFields uri) by
        rw [parseLiveRids_eq hAt uri (readers.ridLeft []), length_readUntilBad],
    show (parseLiveDataRates readers uri).length =
      fieldsRead readers.parse2 (dataRateFields uri) by
        rw [parseLiveDataRates_eq, List.length_map, length_readUntilBad]]
  exact ite_not ..

/-- A field of 32 digits is what it begins with. -/
theorem begin_of_ridOf {field : Text} (h : (ridOf readers field).isSome) :
    field.take 32 = field ∧ ridBegins readers field = ridOf readers field ∧
      readers.fromString field = ridOf readers field := by
  have hLength : field.length = 32 := by
    by_contra hNot
    rw [ridOf, if_neg hNot] at h
    cases h
  have hTake : field.take 32 = field := List.take_of_length_le hLength.le
  refine ⟨hTake, ?_, ?_⟩
  · rw [ridBegins, ridOf, if_pos hLength.ge, if_pos hLength, hTake]
  · rw [ridOf, if_pos hLength]

theorem rids_of_wellFormed {fields : List Text} (prev : Guid)
    (h : ∀ field ∈ fields, (ridOf readers field).isSome) : fields.map (ridOf readers) =
      (readUntilBad (ridBegins readers) (lastRid readers) prev fields).map some := by
  apply readUntilBad_eq prev _ _ h
  · exact fun field _ hSome => (begin_of_ridOf hSome).2.1
  · intro _ field _ hSome
    obtain ⟨hTake, -, hRead⟩ := begin_of_ridOf hSome
    obtain ⟨rid, hRid⟩ := Option.isSome_iff_exists.mp hSome
    unfold lastRid
    rw [hTake, hRead, hRid, Option.getD_some]

theorem dataRates_of_wellFormed {fields : List Text} (prev : Int32)
    (h : ∀ field ∈ fields, (dataRateOf readers field).isSome) :
    fields.map (dataRateOf readers) = ((readUntilBad readers.parse2 (lastRate readers) prev
      fields).map Int32.toUInt32).map some := by
  have hRates : fields.map readers.parse2 =
      (readUntilBad readers.parse2 (lastRate readers) prev fields).map some := by
    apply readUntilBad_eq prev
    · exact fun _ _ _ => rfl
    · intro _ field _ hSome
      obtain ⟨rate, hRate⟩ := Option.isSome_iff_exists.mp hSome
      unfold lastRate
      rw [hRate, Option.getD_some]
    · intro field hField
      simpa [dataRateOf] using h field hField
  have hMap := congrArg (List.map (Option.map Int32.toUInt32)) hRates
  rw [List.map_map, List.map_map] at hMap
  rw [List.map_map]
  exact hMap

/-- Fields that have values are well formed. -/
theorem isSome_of_map {α β : Type} {f : α → Option β} {fields : List α} {values : List β}
    (h : fields.map f = values.map some) : ∀ field ∈ fields, (f field).isSome := by
  intro field hField
  have hMem := List.mem_map_of_mem (f := f) hField
  rw [h] at hMem
  obtain ⟨value, -, hValue⟩ := List.mem_map.mp hMem
  rw [← hValue]
  rfl

end Loops

/-- A returned object has the streams of the URL exactly if no field of the URL is malformed, or
the two lists are read up to different places, so that nothing is returned. -/
theorem channelsRight_iff (hAt : ∀ text, '@' ∈ text → readers.fromString text = none)
    (url : Text) : (∀ info, parseLive readers (Uri.parseurl url) = some info →
        ChannelsRight readers (Uri.parseurl url) info) ↔
      fieldsRead (ridBegins readers) (ridFields (Uri.parseurl url)) ≠
          fieldsRead readers.parse2 (dataRateFields (Uri.parseurl url)) ∨
        AllWellFormed readers (Uri.parseurl url) := by
  generalize Uri.parseurl url = uri
  rw [parseLive_eq hAt]
  constructor
  · intro h
    by_cases hSame : fieldsRead (ridBegins readers) (ridFields uri) =
        fieldsRead readers.parse2 (dataRateFields uri)
    · rw [if_pos hSame] at h
      have hRight := h _ rfl
      exact Or.inr ⟨isSome_of_map hRight.rids, isSome_of_map hRight.dataRates⟩
    · exact Or.inl hSame
  · intro h info hInfo
    split at hInfo
    · rename_i hSame
      obtain rfl := Option.some.inj hInfo
      obtain ⟨hRids, hRates⟩ := h.resolve_left fun hNe => hNe hSame
      have hRidsEq := rids_of_wellFormed (readers.ridLeft []) hRids
      have hRatesEq := dataRates_of_wellFormed 0 hRates
      refine ⟨?_, ?_, ?_⟩
      · rw [hRidsEq, parseLiveRids_eq hAt uri (readers.ridLeft [])]
      · rw [hRatesEq, parseLiveDataRates_eq]
      · have hLeft := congrArg List.length hRidsEq
        have hRight := congrArg List.length hRatesEq
        rw [List.length_map, List.length_map, length_readUntilBad] at hLeft
        rw [List.length_map, List.length_map, List.length_map, length_readUntilBad] at hRight
        rw [hLeft, hRight, hSame]
    · cases hInfo

/-! ## Readers of digits -/

/-- An integer in decimal digits. -/
def decimalInt (text : Text) : Option Int32 := (decimal text).map UInt32.toInt32

/-- RIDs in hexadecimal digits and numbers in decimal ones; an error leaves what was there. -/
def digitReaders : FieldReaders where
  fromString := hexGuid
  ridLeft _ := ⟨List.replicate 16 0, rfl⟩
  parse2 := decimalInt
  rateLeft _ dataRate := dataRate

theorem hexGuid_at (text : Text) (h : '@' ∈ text) : digitReaders.fromString text = none := by
  have hAll : text.all (fun c => c.isDigit || ('A' ≤ c && c ≤ 'F')) = false := by
    rw [List.all_eq_false]
    exact ⟨'@', h, by decide⟩
  show hexGuid text = none
  unfold hexGuid
  simp [hAll]

/-- A channel of two streams. -/
def twoStreamsUrl : Text :=
  "http://127.0.0.1/playlive.flv?rid=00112233445566778899AABBCCDDEEFF".toList ++
    "@FFEEDDCCBBAA99887766554433221100&datarate=400@800&start=0".toList

theorem channelsRight_iff_twoStreams :
    (∀ info, parseLive digitReaders (Uri.parseurl twoStreamsUrl) = some info →
      ChannelsRight digitReaders (Uri.parseurl twoStreamsUrl) info) ↔
    fieldsRead (ridBegins digitReaders) (ridFields (Uri.parseurl twoStreamsUrl)) ≠
        fieldsRead digitReaders.parse2 (dataRateFields (Uri.parseurl twoStreamsUrl)) ∨
      AllWellFormed digitReaders (Uri.parseurl twoStreamsUrl) :=
  channelsRight_iff digitReaders hexGuid_at twoStreamsUrl

/-- A channel of one stream, whose RID is not one. -/
def brokenUrl : Text := "http://127.0.0.1/playlive.flv?rid=x&datarate=400".toList

theorem channelsRight_fails :
    ¬ ∀ info, parseLive digitReaders (Uri.parseurl brokenUrl) = some info →
      ChannelsRight digitReaders (Uri.parseurl brokenUrl) info := by
  intro h
  rw [parseLive_eq hexGuid_at, if_pos (by decide +kernel)] at h
  have hRid := isSome_of_map (h _ rfl).rids ['x'] (by decide +kernel)
  have hNone : (ridOf digitReaders ['x']).isSome = false := by decide +kernel
  rw [hNone] at hRid
  cases hRid

end PlayInfo

end Proxy
