import Peer.Network.Uri
import Peer.P2P.TextSearch

/-! What the positions of a URL cut its text into. -/
namespace Network.Uri

open Basis Storage P2P P2P.Text

/-- The text begins with a protocol: the first of its colons, slashes and dots is a colon. -/
def HasProtocol (text : Text) : Prop :=
  ':' ∈ text ∧ '/' ∉ upTo ':' text ∧ '.' ∉ upTo ':' text

instance (text : Text) : Decidable (HasProtocol text) := inferInstanceAs (Decidable (_ ∧ _))

/-- What follows the second slash if there is a protocol, else everything. -/
def authority (text : Text) : Text :=
  if HasProtocol text ∧ '/' ∈ behind '/' text then behind '/' (behind '/' text) else text

/-- Before the first `c` there is no `d`. -/
theorem before_find_iff {text : Text} {c d : Char} (hNe : d ≠ c) (hMem : c ∈ text) :
    before (upTo c text).length (find text d 0) = true ↔ d ∉ upTo c text := by
  obtain ⟨front, back, rfl, hNotMem⟩ := List.eq_append_cons_of_mem hMem
  rw [upTo_split hNotMem]
  by_cases h : d ∈ front
  · obtain ⟨a, b, rfl, ha⟩ := List.eq_append_cons_of_mem h
    have hFind : find (a ++ d :: (b ++ c :: back)) d 0 = some a.length := by
      simpa using find_split ha [] (b ++ c :: back)
    simp [before, hFind]
  · rw [find_zero, upTo_append h]
    by_cases hBack : d ∈ back
    · simp [before, h, hNe, hBack, upTo, hNe.symm]
    · simp [before, h, hNe, hBack]

theorem protcalEnd_eq (text : Text) :
    protcalEnd text = if HasProtocol text then some (upTo ':' text).length else none := by
  unfold protcalEnd
  rw [find_zero text ':']
  by_cases hColon : ':' ∈ text
  · have hSlash := before_find_iff (d := '/') (by decide) hColon
    have hDot := before_find_iff (d := '.') (by decide) hColon
    have hIff : HasProtocol text ↔ '/' ∉ upTo ':' text ∧ '.' ∉ upTo ':' text := by
      simp [HasProtocol, hColon]
    rw [if_pos hColon, Option.filter_some]
    simp only [Bool.and_eq_true, hSlash, hDot, hIff]
  · rw [if_neg hColon, if_neg fun h : HasProtocol text => hColon h.1]
    rfl

/-- The host begins where the authority does. -/
theorem exists_front (text : Text) :
    ∃ front, text = front ++ authority text ∧ hostStart text = front.length := by
  unfold hostStart authority
  rw [protcalEnd_eq]
  by_cases hProtocol : HasProtocol text
  · rw [if_pos hProtocol, Option.isSome_some, if_pos rfl, find_zero]
    by_cases hFirst : '/' ∈ text
    · obtain ⟨before, back, rfl, hNotMem⟩ := List.eq_append_cons_of_mem hFirst
      have hNext : next (some before.length) = (before ++ ['/']).length := by simp [next]
      rw [if_pos hFirst, upTo_split hNotMem, behind_split hNotMem, hNext,
        show before ++ '/' :: back = (before ++ ['/']) ++ back by simp, find_eq]
      by_cases hSecond : '/' ∈ back
      · refine ⟨before ++ ['/'] ++ upTo '/' back ++ ['/'], ?_, ?_⟩
        · rw [if_pos ⟨by simpa using hProtocol, hSecond⟩]
          have hBack := upTo_append_behind hSecond
          simp only [List.append_assoc, List.cons_append, List.nil_append]
          rw [hBack]
        · rw [if_pos hSecond]
          simp [next]
          omega
      · rw [if_neg hSecond, if_neg (fun h => hSecond h.2)]
        exact ⟨[], rfl, rfl⟩
    · have hNone : '/' ∉ behind '/' text := by simp [behind_of_notMem hFirst]
      rw [if_neg hFirst, if_neg (fun h => hNone h.2)]
      refine ⟨[], rfl, ?_⟩
      simp only [next, Option.elim_none, find_zero, if_neg hFirst]
      rfl
  · rw [if_neg hProtocol, if_neg (fun h => hProtocol h.1)]
    exact ⟨[], rfl, rfl⟩

/-- The last place in the whole text. -/
theorem rfindFrom_end (text : Text) (c : Char) :
    rfindFrom text c (text.length - 1) = rfind text c := by
  unfold rfindFrom
  rw [List.take_of_length_le (by omega)]

/-! ## The positions -/

section Positions

variable {front host rest : Text}

/-- From the colon of a host on, or from its beginning, the search for the slash passes it. -/
theorem find_slash_behind (hHost : '/' ∉ host) (front tail : Text) :
    find (front ++ (host ++ tail)) '/' ((find (front ++ host) ':' front.length).getD front.length) =
      if '/' ∈ tail then some (front.length + host.length + (upTo '/' tail).length) else none := by
  rw [find_eq front host ':']
  by_cases hColon : ':' ∈ host
  · obtain ⟨before, back, rfl, hNotMem⟩ := List.eq_append_cons_of_mem hColon
    have hBack : '/' ∉ ':' :: back := fun h => hHost (List.mem_append_right _ h)
    have hText : front ++ (before ++ ':' :: back ++ tail) =
        (front ++ before) ++ (':' :: back ++ tail) := by simp
    rw [if_pos hColon, upTo_split hNotMem, Option.getD_some, hText, ← List.length_append, find_eq,
      upTo_append hBack]
    simp only [List.mem_append, hBack, false_or]
    simp only [List.length_append, List.length_cons, Nat.add_assoc]
  · rw [if_neg hColon, Option.getD_none, find_eq, upTo_append hHost]
    simp only [List.mem_append, hHost, false_or]
    simp only [List.length_append, Nat.add_assoc]

/-- The last place at or before the end of a part. -/
theorem rfindFrom_eq (front back : Text) {path : Text} {c : Char} (hMem : c ∈ path) (hBack : c ∉ back.take 1) :
    rfindFrom (front ++ (path ++ back)) c (front.length + path.length) =
      some (front.length + (upToLast c path).length) := by
  obtain ⟨before, inside, rfl, hNotMem⟩ := exists_last_split hMem
  have hTake : (front ++ (before ++ c :: inside ++ back)).take
      (front.length + (before ++ c :: inside).length + 1) =
        (front ++ before) ++ c :: (inside ++ back.take 1) := by
    rw [Nat.add_assoc, List.take_length_add_append, List.take_length_add_append]
    simp
  unfold rfindFrom
  rw [hTake, rfind_split (by simp [hNotMem, hBack]), upToLast_split hNotMem, List.length_append]

/-- The positions of a URL that is a front, a host, a slash and the rest. -/
def laidOut (protcalPos : Option Nat) (front host rest : Text) : Uri :=
  let url := front ++ (host ++ '/' :: rest)
  let path := '/' :: upTo '?' rest
  let start := front.length + host.length
  let hash := rfind url '#'
  { url
    protcalPos
    hostStartPos := front.length
    hostEndPos := start
    domainEndPos := front.length + (upTo ':' host).length
    portStartPos := if ':' ∈ host then some (front.length + (upTo ':' host).length + 1) else none
    portEndPos := if ':' ∈ host then some start else none
    pathStartPos := start
    pathEndPos := start + path.length
    fileStartPos := start + (upToLast '/' path).length + 1
    fileEndPos := start + path.length
    paramStartPos := if '?' ∈ rest then some (start + path.length + 1) else none
    paramEndPos := hash.getD url.length
    requestStartPos := start
    requestEndPos := hash.getD url.length }

theorem parsePath_eq (protcalPos : Option Nat) :
    parsePath (front ++ (host ++ '/' :: rest)) protcalPos front.length
      (find (front ++ host) ':' front.length) (front.length + host.length) =
        laidOut protcalPos front host rest := by
  have hAll : front ++ (host ++ '/' :: rest) = (front ++ host) ++ '/' :: rest := by simp
  have hQuestion : find (front ++ (host ++ '/' :: rest)) '?' (front.length + host.length) =
      if '?' ∈ rest then some (front.length + host.length + ('/' :: upTo '?' rest).length)
      else none := by
    rw [hAll, ← List.length_append, find_eq]
    simp [upTo]
  have hEnd : (find (front ++ (host ++ '/' :: rest)) '?' (front.length + host.length)).getD
      (front ++ (host ++ '/' :: rest)).length =
        front.length + host.length + ('/' :: upTo '?' rest).length := by
    rw [hQuestion]
    by_cases h : '?' ∈ rest
    · rw [if_pos h, Option.getD_some]
    · rw [if_neg h, Option.getD_none, upTo_of_notMem h, hAll, List.length_append,
        List.length_append]
  have hFile : rfindFrom (front ++ (host ++ '/' :: rest)) '/'
      (front.length + host.length + ('/' :: upTo '?' rest).length) =
        some (front.length + host.length + (upToLast '/' ('/' :: upTo '?' rest)).length) := by
    rw [← List.length_append, hAll]
    by_cases h : '?' ∈ rest
    · have hPath := rfindFrom_eq (front ++ host) ('?' :: behind '?' rest)
        (List.mem_cons_self (a := '/') (l := upTo '?' rest)) (by simp)
      rwa [List.cons_append, upTo_append_behind h] at hPath
    · have hPath := rfindFrom_eq (front ++ host) []
        (List.mem_cons_self (a := '/') (l := rest)) (by simp)
      rw [List.append_nil] at hPath
      rw [upTo_of_notMem h, hPath]
  unfold parsePath laidOut
  dsimp only
  rw [rfindFrom_end, hEnd, hFile, hQuestion, find_eq front host ':']
  by_cases hColon : ':' ∈ host <;> by_cases h : '?' ∈ rest <;>
    simp [hColon, h, next, upTo_of_notMem]

/-- Every URL is a front, a host, and the rest behind the slash it has or gets. -/
theorem parseurl_eq (text : Text) : ∃ front, text = front ++ authority text ∧
    hostStart text = front.length ∧ parseurl text =
      laidOut (protcalEnd text) front (upTo '/' (authority text)) (behind '/' (authority text)) := by
  obtain ⟨front, hText, hStart⟩ := exists_front text
  refine ⟨front, hText, hStart, ?_⟩
  have hHost := notMem_upTo '/' (authority text)
  unfold parseurl
  rw [hStart]
  generalize protcalEnd text = protcalPos
  generalize authority text = A at hText hHost ⊢
  subst hText
  dsimp only
  by_cases h : '/' ∈ A
  · have hSplit := upTo_append_behind h
    generalize upTo '/' A = host at hSplit hHost ⊢
    generalize behind '/' A = rest at hSplit ⊢
    subst hSplit
    have hSlash : find (front ++ (host ++ '/' :: rest)) '/' front.length =
        some (front ++ host).length := by
      rw [find_split hHost, List.length_append]
    have hTake : (front ++ (host ++ '/' :: rest)).take (front ++ host).length = front ++ host := by
      rw [← List.append_assoc, List.take_left]
    rw [hSlash]
    dsimp only
    rw [hTake, find_slash_behind hHost, if_pos (List.mem_cons_self ..)]
    dsimp only
    rw [upTo_cons_self]
    exact parsePath_eq protcalPos
  · rw [upTo_of_notMem h, behind_of_notMem h, find_absent h]
    have hNone := find_slash_behind h front []
    have hAppended := find_slash_behind h front ['/']
    rw [List.append_nil, if_neg (by simp)] at hNone
    rw [if_pos (by simp), upTo_cons_self] at hAppended
    dsimp only
    rw [hNone]
    dsimp only
    rw [List.append_assoc, hAppended]
    exact parsePath_eq protcalPos

/-- The slash that a URL may get makes it longer by one. -/
theorem withSlash_length (front A : Text) :
    (front ++ (upTo '/' A ++ '/' :: behind '/' A)).length ≤ (front ++ A).length + 1 := by
  by_cases h : '/' ∈ A
  · rw [upTo_append_behind h]
    omega
  · rw [upTo_of_notMem h, behind_of_notMem h, ← List.append_assoc, List.length_append]
    simp

end Positions

/-! ## The accessors -/

section Accessors

variable {front text back host rest : Text} {protcalPos : Option Nat}

theorem between_eq {start stop : Nat} (hLe : start ≤ stop) (hLt : stop < 2 ^ 32) :
    between text start stop = substr text start (stop - start) := by
  unfold between
  rw [subU32_of_le hLt hLe]

theorem between_split (front text back : Text) (h : front.length + text.length < 2 ^ 32) :
    between (front ++ (text ++ back)) front.length (front.length + text.length) = text := by
  rw [between_eq (by omega) h, Nat.add_sub_cancel_left, substr_split]

/-- Up to the last hash of the URL. If that is before the text, the difference of the
positions is more than the rest of the URL. -/
theorem between_hash (front text : Text) (h : (front ++ text).length < 2 ^ 32) :
    between (front ++ text) front.length ((rfind (front ++ text) '#').getD (front ++ text).length) =
      upToLast '#' text := by
  by_cases hText : '#' ∈ text
  · obtain ⟨before, back, rfl, hNotMem⟩ := exists_last_split hText
    rw [← List.append_assoc, rfind_split hNotMem, Option.getD_some, List.length_append,
      List.append_assoc, upToLast_split hNotMem]
    simp only [List.length_append] at h
    exact between_split _ _ _ (by omega)
  · rw [upToLast_of_notMem hText]
    by_cases hFront : '#' ∈ front
    · obtain ⟨before, back, rfl, hNotMem⟩ := exists_last_split hFront
      rw [List.append_assoc, List.cons_append, rfind_split (by simp [hNotMem, hText]),
        Option.getD_some]
      have hBig : text.length ≤ subU32 before.length (before ++ '#' :: back).length := by
        simp only [List.length_append, List.length_cons] at h ⊢
        simp only [subU32, u32]
        omega
      unfold between substr
      rw [show before ++ '#' :: (back ++ text) = (before ++ '#' :: back) ++ text by simp,
        List.drop_left, List.take_of_length_le hBig]
    · rw [rfind_absent (by simp [hFront, hText]), Option.getD_none]
      have hAll := between_split front text []
        (by simpa using h)
      rwa [List.append_nil, ← List.length_append] at hAll

variable (h : (front ++ (host ++ '/' :: rest)).length < 2 ^ 32)

include h

theorem laidOut_getdomain : (laidOut protcalPos front host rest).getdomain = upTo ':' host := by
  obtain ⟨tail, hTail⟩ : upTo ':' host <+: host := upTo_isPrefix ':' host
  have hUrl : front ++ (host ++ '/' :: rest) =
      front ++ (upTo ':' host ++ (tail ++ '/' :: rest)) := by
    rw [← List.append_assoc (upTo ':' host), hTail]
  have hSplit := between_split front (upTo ':' host) (tail ++ '/' :: rest)
    (by rw [hUrl] at h; simp at h; omega)
  rwa [← hUrl] at hSplit

theorem laidOut_getport : (laidOut protcalPos front host rest).getport =
    if ':' ∈ host then behind ':' host else "80".toList := by
  unfold getport laidOut
  by_cases hColon : ':' ∈ host
  · obtain ⟨domain, port, rfl, hNotMem⟩ := List.eq_append_cons_of_mem hColon
    have hSplit := between_split (front ++ (domain ++ [':'])) port ('/' :: rest)
      (by simp at h ⊢; omega)
    simp only [if_pos hColon, upTo_split hNotMem, behind_split hNotMem, Option.getD_some]
    simpa [Nat.add_assoc, Nat.add_comm 1] using hSplit
  · simp only [if_neg hColon]

theorem laidOut_getpath :
    (laidOut protcalPos front host rest).getpath = '/' :: upTo '?' rest := by
  obtain ⟨tail, hTail⟩ : upTo '?' rest <+: rest := upTo_isPrefix '?' rest
  have hUrl : front ++ (host ++ '/' :: rest) =
      (front ++ host) ++ ('/' :: upTo '?' rest ++ tail) := by
    rw [List.cons_append, hTail, List.append_assoc]
  have hSplit := between_split (front ++ host) ('/' :: upTo '?' rest) tail
    (by rw [hUrl] at h; simp at h ⊢; omega)
  rw [← hUrl, List.length_append] at hSplit
  exact hSplit

theorem laidOut_getfile : (laidOut protcalPos front host rest).getfile =
    behindLast '/' ('/' :: upTo '?' rest) := by
  obtain ⟨tail, hTail⟩ : upTo '?' rest <+: rest := upTo_isPrefix '?' rest
  obtain ⟨before, file, hPath, hNotMem⟩ :=
    exists_last_split (List.mem_cons_self (a := '/') (l := upTo '?' rest))
  have hUrl : front ++ (host ++ '/' :: rest) =
      (front ++ host ++ before ++ ['/']) ++ (file ++ tail) := by
    rw [← hTail, ← List.cons_append, hPath]
    simp
  have hSplit := between_split (front ++ host ++ before ++ ['/']) file tail
    (by rw [hUrl] at h; simp at h ⊢; omega)
  rw [← hUrl] at hSplit
  unfold getfile laidOut
  dsimp only
  rw [hPath, upToLast_split hNotMem, behindLast_split hNotMem]
  simpa [Nat.add_assoc, Nat.add_comm 1] using hSplit

theorem laidOut_getrequest :
    (laidOut protcalPos front host rest).getrequest = upToLast '#' ('/' :: rest) := by
  have hHash := between_hash (front ++ host) ('/' :: rest) (by simpa using h)
  rw [List.append_assoc, List.length_append] at hHash
  exact hHash

theorem laidOut_getparameter : (laidOut protcalPos front host rest).getparameter =
    upToLast '#' (behind '?' rest) := by
  unfold getparameter laidOut
  by_cases hQuestion : '?' ∈ rest
  · have hUrl : front ++ (host ++ '/' :: rest) =
        (front ++ host ++ '/' :: upTo '?' rest ++ ['?']) ++ behind '?' rest := by
      conv_lhs => rw [← upTo_append_behind hQuestion]
      simp
    have hHash := between_hash (front ++ host ++ '/' :: upTo '?' rest ++ ['?'])
      (behind '?' rest) (by rwa [← hUrl])
    rw [← hUrl] at hHash
    simp only [if_pos hQuestion]
    simpa [Nat.add_assoc, Nat.add_comm 1] using hHash
  · simp only [if_neg hQuestion, behind_of_notMem hQuestion]
    rw [upToLast_of_notMem (by simp)]

end Accessors

/-- There is always a path, if only the slash. -/
theorem getpath_ne_nil {text : Text} (h : text.length + 1 < 2 ^ 32) :
    (parseurl text).getpath ≠ [] := by
  obtain ⟨front, hText, -, hParse⟩ := parseurl_eq text
  have hLength := withSlash_length front (authority text)
  rw [← hText] at hLength
  rw [hParse, laidOut_getpath (by omega)]
  exact List.cons_ne_nil _ _

/-- A request has only letters of its URL and slashes. -/
theorem mem_getrequest {text : Text} {c : Char} (hNe : c ≠ '/')
    (h : c ∈ (parseurl text).getrequest) : c ∈ text := by
  obtain ⟨front, hText, -, hParse⟩ := parseurl_eq text
  rw [hParse] at h
  have hUrl : c ∈ front ++ (upTo '/' (authority text) ++ '/' :: behind '/' (authority text)) :=
    List.drop_subset _ _ (List.take_subset _ _ h)
  rw [hText]
  simp only [List.mem_append, List.mem_cons, hNe, false_or] at hUrl ⊢
  exact hUrl.imp_right (mem_iff_of_cut hNe _).mpr

/-! ## The value of a key -/

/-- The value of the first pair `key=value`, empty if there is none. -/
def firstValue (query key : Text) : Text :=
  (((query.splitOn '&').find? fun pair => (key ++ ['=']).isPrefixOf pair).map
    (List.drop (key ++ ['=']).length)).getD []

section Values

variable {key before value back : Text}

/-- Where the value of a key begins and ends. -/
theorem valuePos_eq (hKey : '=' ∉ key) {para : Text} {start : Nat}
    (h : findText ('&' :: key ++ ['=']) para = some start) :
    ∃ before back, para = before ++ (('&' :: key ++ ['=']) ++ back) ∧
      behindPattern ('&' :: key ++ ['=']) para = some back ∧
      valuePos para key = some ((before ++ ('&' :: key ++ ['='])).length,
        (before ++ ('&' :: key ++ ['='])).length + (upTo '&' back).length) := by
  obtain ⟨before, back, rfl, rfl, hBehind⟩ := behindPattern_of_findText h
  refine ⟨before, back, rfl, hBehind, ?_⟩
  have hEquals : find (before ++ ('&' :: key ++ ['='] ++ back)) '=' before.length =
      some (before.length + ('&' :: key).length) := by
    have hNotMem : '=' ∉ '&' :: key := by simp [hKey]
    rw [List.append_assoc ('&' :: key), List.singleton_append]
    exact find_split hNotMem _ _
  have hStart : next (some (before.length + ('&' :: key).length)) =
      (before ++ ('&' :: key ++ ['='])).length := by
    simp [next, Nat.add_assoc]
  unfold valuePos
  rw [h, Option.map_some]
  dsimp only
  rw [hEquals, hStart, ← List.append_assoc before _ back, find_eq]
  by_cases hMore : '&' ∈ back
  · rw [if_pos hMore, Option.getD_some]
  · rw [if_neg hMore, Option.getD_none, upTo_of_notMem hMore, ← List.length_append]

theorem getparameterOf_eq (uri : Uri) (hEquals : '=' ∉ key) (hAmpersand : '&' ∉ key)
    (h : uri.getparameter.length + 1 < 2 ^ 32) :
    uri.getparameterOf key = firstValue uri.getparameter key := by
  have hFirst := behindPattern_eq_find
    (show '&' ∉ key ++ ['='] by simp [hAmpersand]) uri.getparameter
  unfold firstValue
  rw [← hFirst]
  unfold getparameterOf
  dsimp only
  cases hFind : findText ('&' :: key ++ ['=']) ('&' :: uri.getparameter) with
  | none =>
      have hNone := findText_eq_none_iff.mp hFind
      rw [List.cons_append] at hNone hFind
      have hPos : valuePos ('&' :: uri.getparameter) key = none := by
        unfold valuePos
        rw [List.cons_append, hFind]
        rfl
      rw [hPos, hNone]
      rfl
  | some start =>
      obtain ⟨before, back, hSplit, hBehind, hPos⟩ := valuePos_eq hEquals hFind
      obtain ⟨tail, hTail⟩ : upTo '&' back <+: back := upTo_isPrefix '&' back
      have hPara : '&' :: uri.getparameter =
          (before ++ ('&' :: key ++ ['='])) ++ (upTo '&' back ++ tail) := by
        rw [hSplit, hTail, List.append_assoc before _ back]
      rw [List.cons_append] at hBehind
      rw [hPos, hBehind, hPara]
      have hLength : (before ++ ('&' :: key ++ ['='])).length + (upTo '&' back).length < 2 ^ 32 := by
        have hAll := congrArg List.length hPara
        simp only [List.length_append, List.length_cons] at hAll h ⊢
        omega
      exact between_split _ _ _ hLength

end Values

end Network.Uri
