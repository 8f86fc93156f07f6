import Mathlib.Data.Nat.SuccPred
import Peer.Network.UriParts

/-! When the parts of a URL are the ones it was made of, and when the accessors take their
substrings in order. -/
namespace Network.Uri

open Basis Storage P2P P2P.Text

/-- A part behind its delimiter, if it is there. -/
def marked (c : Char) (part : Option Text) : Text := part.elim [] (c :: ·)

/-- A URL made of components without the delimiters that end them. -/
structure UrlParts where
  scheme : Text
  host : Text
  port : Option Text
  path : Text
  query : Option Text
  fragment : Option Text
  scheme_free : ':' ∉ scheme ∧ '/' ∉ scheme
  host_free : ':' ∉ host ∧ '/' ∉ host ∧ '?' ∉ host ∧ '#' ∉ host
  port_free : '/' ∉ port.getD [] ∧ '?' ∉ port.getD [] ∧ '#' ∉ port.getD []
  path_slash : path = [] ∨ path.head? = some '/'
  path_free : '?' ∉ path ∧ '#' ∉ path
  query_free : '#' ∉ query.getD []

namespace UrlParts

/-- The host with its port. -/
def authority (parts : UrlParts) : Text := parts.host ++ marked ':' parts.port

/-- The path with the query. -/
def request (parts : UrlParts) : Text := parts.path ++ marked '?' parts.query

/-- The URL. -/
def text (parts : UrlParts) : Text :=
  parts.scheme ++ ("://".toList ++
    (parts.authority ++ (parts.request ++ marked '#' parts.fragment)))

/-- The accessors return the components; without a port, 80. -/
structure Exact (parts : UrlParts) : Prop where
  protocol : (parseurl parts.text).getprotocol = parts.scheme
  domain : (parseurl parts.text).getdomain = parts.host
  port : (parseurl parts.text).getport = parts.port.getD "80".toList
  path : (parseurl parts.text).getpath = parts.path
  parameter : (parseurl parts.text).getparameter = parts.query.getD []
  request : (parseurl parts.text).getrequest = parts.request
  file : (parseurl parts.text).getfile = behindLast '/' parts.path
  value : ∀ key : Text, '=' ∉ key → '&' ∉ key →
    (parseurl parts.text).getparameterOf key = firstValue (parts.query.getD []) key

/-- No dot in the scheme, a path, and before a fragment, which has no hash inside, a query. -/
structure Plain (parts : UrlParts) : Prop where
  scheme : '.' ∉ parts.scheme
  path : parts.path ≠ []
  fragment : ∀ fragment, parts.fragment = some fragment →
    parts.query.isSome ∧ '#' ∉ fragment

variable (parts : UrlParts)

theorem hasProtocol_iff : HasProtocol parts.text ↔ '.' ∉ parts.scheme := by
  have hUpTo : upTo ':' parts.text = parts.scheme := upTo_split parts.scheme_free.1
  unfold HasProtocol
  rw [hUpTo]
  simp [text, parts.scheme_free.2]

theorem authority_text (h : '.' ∉ parts.scheme) :
    Uri.authority parts.text = parts.authority ++ (parts.request ++ marked '#' parts.fragment) := by
  have hFirst : behind '/' parts.text =
      '/' :: (parts.authority ++ (parts.request ++ marked '#' parts.fragment)) := by
    have hNotMem : '/' ∉ parts.scheme ++ [':'] := by simp [parts.scheme_free.2]
    have hText : parts.text = (parts.scheme ++ [':']) ++ '/' :: '/' ::
        (parts.authority ++ (parts.request ++ marked '#' parts.fragment)) := by
      simp [text]
    rw [hText, behind_split hNotMem]
  unfold Uri.authority
  rw [hFirst, if_pos ⟨parts.hasProtocol_iff.mpr h, List.mem_cons_self ..⟩, behind_cons_self]

theorem slash_notMem_authority : '/' ∉ parts.authority := by
  have hPort := parts.port_free.1
  unfold authority marked
  cases hCase : parts.port with
  | none => simpa using parts.host_free.2.1
  | some port => simpa [parts.host_free.2.1, hCase] using hPort

theorem parseurl_text (h : '.' ∉ parts.scheme) {p : Text} (hPath : parts.path = '/' :: p) :
    parseurl parts.text = laidOut (some parts.scheme.length) (parts.scheme ++ "://".toList)
      parts.authority (p ++ (marked '?' parts.query ++ marked '#' parts.fragment)) := by
  obtain ⟨front, hText, -, hParse⟩ := parseurl_eq parts.text
  have hUpTo : upTo ':' parts.text = parts.scheme := upTo_split parts.scheme_free.1
  have hAuthority := parts.authority_text h
  have hFront : front = parts.scheme ++ "://".toList := by
    rw [hAuthority] at hText
    have hSame : front ++ (parts.authority ++ (parts.request ++ marked '#' parts.fragment)) =
        parts.scheme ++ "://".toList ++
          (parts.authority ++ (parts.request ++ marked '#' parts.fragment)) := by
      rw [← hText, List.append_assoc]
      rfl
    exact List.append_cancel_right hSame
  have hRest : parts.request ++ marked '#' parts.fragment =
      '/' :: (p ++ (marked '?' parts.query ++ marked '#' parts.fragment)) := by
    simp [request, hPath]
  rw [hParse, protcalEnd_eq, if_pos (parts.hasProtocol_iff.mpr h), hUpTo, hFront, hAuthority, hRest,
    upTo_split parts.slash_notMem_authority, behind_split parts.slash_notMem_authority]

/-- The accessors of a URL with a path, by the text behind its first slash. -/
structure Reads (uri : Uri) (scheme host rest : Text) (port : Option Text) : Prop where
  protocol : uri.getprotocol = scheme
  domain : uri.getdomain = host
  port : uri.getport = port.getD "80".toList
  path : uri.getpath = '/' :: upTo '?' rest
  parameter : uri.getparameter = upToLast '#' (behind '?' rest)
  request : uri.getrequest = upToLast '#' ('/' :: rest)
  file : uri.getfile = behindLast '/' ('/' :: upTo '?' rest)

theorem reads_text (h : '.' ∉ parts.scheme) {p : Text} (hPath : parts.path = '/' :: p)
    (hSize : parts.text.length < 2 ^ 32) :
    Reads (parseurl parts.text) parts.scheme parts.host
      (p ++ (marked '?' parts.query ++ marked '#' parts.fragment)) parts.port := by
  have hUrl : (parts.scheme ++ "://".toList ++ (parts.authority ++ '/' ::
      (p ++ (marked '?' parts.query ++ marked '#' parts.fragment)))).length < 2 ^ 32 := by
    have hText : parts.text = parts.scheme ++ "://".toList ++ (parts.authority ++ '/' ::
        (p ++ (marked '?' parts.query ++ marked '#' parts.fragment))) := by
      simp [text, request, hPath]
    rwa [← hText]
  rw [parts.parseurl_text h hPath]
  have hColon := parts.host_free.1
  refine ⟨?_, ?_, ?_, laidOut_getpath hUrl, laidOut_getparameter hUrl, laidOut_getrequest hUrl,
    laidOut_getfile hUrl⟩
  · simp [getprotocol, laidOut, substr]
  · rw [laidOut_getdomain hUrl]
    cases hPort : parts.port with
    | none => simp [authority, marked, hPort, upTo_of_notMem hColon]
    | some port => simp [authority, marked, hPort, upTo_split hColon]
  · rw [laidOut_getport hUrl]
    cases hPort : parts.port with
    | none => simp [authority, marked, hPort, hColon]
    | some port => simp [authority, marked, hPort, behind_split hColon]

theorem exists_path (h : parts.path ≠ []) : ∃ p, parts.path = '/' :: p := by
  rcases parts.path_slash with hNil | hHead
  · exact absurd hNil h
  · exact List.head?_eq_some_iff.mp hHead

theorem Exact.scheme_dot (h : Exact parts) : '.' ∉ parts.scheme := by
  intro hDot
  have hNone : protcalEnd parts.text = none := by
    rw [protcalEnd_eq, if_neg fun hProtocol => parts.hasProtocol_iff.mp hProtocol hDot]
  obtain ⟨front, -, -, hParse⟩ := parseurl_eq parts.text
  have hProtocol := h.protocol
  rw [hParse, hNone] at hProtocol
  have hHttp : "http".toList = parts.scheme := hProtocol
  rw [← hHttp] at hDot
  simp at hDot

theorem Exact.plain (h : Exact parts) (hSize : parts.text.length + 1 < 2 ^ 32) : Plain parts := by
  have hDot := h.scheme_dot
  have hPath : parts.path ≠ [] := h.path ▸ getpath_ne_nil hSize
  obtain ⟨p, hP⟩ := parts.exists_path hPath
  have hReads := parts.reads_text hDot hP (by omega)
  have hFree := parts.path_free
  have hQueryFree := parts.query_free
  rw [hP] at hFree
  simp only [List.mem_cons, not_or] at hFree
  refine ⟨hDot, hPath, ?_⟩
  intro fragment hFragment
  cases hQuery : parts.query with
  | none =>
      have hGet := h.path
      rw [hReads.path, hP, hQuery, hFragment, upTo_append hFree.1.2] at hGet
      simp [marked, upTo] at hGet
  | some query =>
      refine ⟨rfl, fun hHash => ?_⟩
      have hGet := h.parameter
      rw [hReads.parameter, hQuery, hFragment, behind_append hFree.1.2] at hGet
      simp only [marked, Option.elim_some, List.cons_append, behind_cons_self,
        Option.getD_some] at hGet
      rw [show query ++ '#' :: fragment = (query ++ ['#']) ++ fragment by simp,
        upToLast_append hHash] at hGet
      simp at hGet

/-- Before a fragment without a hash the text is cut at its hash. -/
theorem upToLast_marked {text : Text} {fragment : Option Text} (h : '#' ∉ text)
    (hFragment : ∀ f, fragment = some f → '#' ∉ f) :
    upToLast '#' (text ++ marked '#' fragment) = text := by
  cases fragment with
  | none => simp [marked, upToLast_of_notMem h]
  | some f => exact upToLast_split (hFragment f rfl)

theorem Plain.exact (h : Plain parts) (hSize : parts.text.length + 1 < 2 ^ 32) : Exact parts := by
  obtain ⟨p, hP⟩ := parts.exists_path h.path
  have hReads := parts.reads_text h.scheme hP (by omega)
  have hFree := parts.path_free
  have hQueryFree := parts.query_free
  rw [hP] at hFree
  simp only [List.mem_cons, not_or] at hFree
  have hFragment : ∀ f, parts.fragment = some f → '#' ∉ f := fun f hf => (h.fragment f hf).2
  have hPath : (parseurl parts.text).getpath = parts.path := by
    rw [hReads.path, hP, upTo_append hFree.1.2]
    cases hQuery : parts.query with
    | none =>
        cases hCase : parts.fragment with
        | none => simp [marked]
        | some f => simpa [hQuery] using (h.fragment f hCase).1
    | some query => simp [marked]
  have hParameter : (parseurl parts.text).getparameter = parts.query.getD [] := by
    rw [hReads.parameter, behind_append hFree.1.2]
    cases hQuery : parts.query with
    | none =>
        cases hCase : parts.fragment with
        | none => simp [marked, upToLast_of_notMem]
        | some f => simpa [hQuery] using (h.fragment f hCase).1
    | some query =>
        rw [hQuery] at hQueryFree
        simp only [marked, Option.elim_some, List.cons_append, behind_cons_self, Option.getD_some]
        exact upToLast_marked hQueryFree hFragment
  refine ⟨hReads.protocol, hReads.domain, hReads.port, hPath, hParameter, ?_, ?_, ?_⟩
  · have hNoHash : '#' ∉ parts.request := by
      unfold request marked
      cases hQuery : parts.query with
      | none => simpa using parts.path_free.2
      | some query => simpa [parts.path_free.2, hQuery] using hQueryFree
    rw [hReads.request, ← List.cons_append, ← hP, ← List.append_assoc]
    exact upToLast_marked hNoHash hFragment
  · rw [hReads.file, ← hReads.path, hPath]
  · intro key hEquals hAmpersand
    have hLength : (parts.query.getD []).length + 1 < 2 ^ 32 := by
      simp only [text, request, List.length_append] at hSize
      cases hQuery : parts.query with
      | none => simp
      | some query =>
          simp only [hQuery, marked, Option.elim_some, List.length_cons] at hSize
          simp only [Option.getD_some]
          omega
    rw [getparameterOf_eq _ hEquals hAmpersand (by rwa [hParameter]), hParameter]

/-- The parts are returned exactly where the URL is plain. -/
theorem exact_iff_plain (hSize : parts.text.length + 1 < 2 ^ 32) : Exact parts ↔ Plain parts :=
  ⟨fun h => h.plain parts hSize, fun h => h.exact parts hSize⟩

end UrlParts

/-! ## The substrings -/

/-- Two positions for a substring. -/
def InOrder (text : Text) (start stop : Nat) : Prop := start ≤ text.length ∧ start ≤ stop

/-- No accessor takes a substring with a start behind the end of the text or behind its own
end. -/
structure SubstringsInOrder (uri : Uri) : Prop where
  fileurl : InOrder uri.url 0 uri.fileEndPos
  request : InOrder uri.url uri.requestStartPos uri.requestEndPos
  protocol : ∀ pos, uri.protcalPos = some pos → InOrder uri.url 0 pos
  domain : InOrder uri.url uri.hostStartPos uri.domainEndPos
  port : ∀ start, uri.portStartPos = some start →
    InOrder uri.url start (uri.portEndPos.getD noPos)
  path : InOrder uri.url uri.pathStartPos uri.pathEndPos
  file : InOrder uri.url uri.fileStartPos uri.fileEndPos
  filerequest : InOrder uri.url uri.fileStartPos uri.requestEndPos
  parameter : ∀ start, uri.paramStartPos = some start → InOrder uri.url start uri.paramEndPos
  host : InOrder uri.url uri.hostStartPos uri.hostEndPos
  referer : InOrder uri.url 0 uri.hostEndPos
  value : ∀ key start stop, valuePos ('&' :: uri.getparameter) key = some (start, stop) →
    InOrder ('&' :: uri.getparameter) start stop

/-- The last hash of a URL, if there is one, is behind the slash that begins the path, and
either behind a question mark or with neither a question mark nor a slash behind it. -/
def HashInOrder (text : Text) : Prop :=
  '#' ∈ text → ∃ before back, behind '/' (authority text) = before ++ '#' :: back ∧ '#' ∉ back ∧
    ('?' ∈ before ∨ '?' ∉ back ∧ '/' ∉ back)

theorem upTo_length_lt {c : Char} {text : Text} (h : c ∈ text) :
    (upTo c text).length < text.length := by
  conv_rhs => rw [← upTo_append_behind h]
  simp

theorem upToLast_length_lt {c : Char} {text : Text} (h : c ∈ text) :
    (upToLast c text).length < text.length := by
  obtain ⟨before, back, rfl, hNotMem⟩ := exists_last_split h
  rw [upToLast_split hNotMem]
  simp

/-- The value of a key is inside the parameters. -/
theorem valuePos_inOrder {para key : Text} {start stop : Nat}
    (h : valuePos para key = some (start, stop)) : InOrder para start stop := by
  unfold valuePos at h
  obtain ⟨first, hFind, hPos⟩ := Option.map_eq_some_iff.mp h
  obtain ⟨before, back, rfl, rfl, -⟩ := behindPattern_of_findText hFind
  have hMem : '=' ∈ '&' :: key ++ ['='] ++ back := by simp
  have hLt := upTo_length_lt hMem
  rw [find_eq, if_pos hMem] at hPos
  simp only [next, Option.elim_some, Prod.mk.injEq] at hPos
  obtain ⟨rfl, rfl⟩ := hPos
  have hStart : before.length + (upTo '=' ('&' :: key ++ ['='] ++ back)).length + 1 ≤
      (before ++ ('&' :: key ++ ['='] ++ back)).length := by
    rw [List.length_append]
    omega
  refine ⟨hStart, ?_⟩
  cases hStop : find (before ++ ('&' :: key ++ ['='] ++ back)) '&'
      (before.length + (upTo '=' ('&' :: key ++ ['='] ++ back)).length + 1) with
  | none => exact hStart
  | some stop => exact le_of_find hStop

section Substrings

variable {front host rest : Text} {protcalPos : Option Nat}

/-- Only the position of the last hash can be out of order. -/
theorem substringsInOrder_iff_hash :
    SubstringsInOrder (laidOut protcalPos front host rest) ↔
      (laidOut protcalPos front host rest).fileStartPos ≤
          (laidOut protcalPos front host rest).requestEndPos ∧
        ('?' ∈ rest → front.length + host.length + ('/' :: upTo '?' rest).length + 1 ≤
          (laidOut protcalPos front host rest).requestEndPos) := by
  have hUrl : (front ++ (host ++ '/' :: rest)).length =
      front.length + host.length + ('/' :: rest).length := by
    simp only [List.length_append]
    omega
  have hDomain : (upTo ':' host).length ≤ host.length := (upTo_isPrefix ':' host).length_le
  have hPath : ('/' :: upTo '?' rest).length ≤ ('/' :: rest).length :=
    Nat.succ_le_succ (upTo_isPrefix '?' rest).length_le
  have hFile := upToLast_length_lt (List.mem_cons_self (a := '/') (l := upTo '?' rest))
  constructor
  · intro h
    refine ⟨h.filerequest.2, fun hQuestion => ?_⟩
    exact (h.parameter _ (if_pos hQuestion)).2
  · rintro ⟨hHash, hParameter⟩
    unfold laidOut at hHash hParameter ⊢
    dsimp only at hHash hParameter
    refine ⟨?_, ?_, ?_, ?_, ?_, ?_, ?_, ?_, ?_, ?_, ?_, fun key start stop h => valuePos_inOrder h⟩
    all_goals simp only [InOrder]
    · omega
    · omega
    · intros
      omega
    · omega
    · intro start hStart
      split_ifs at hStart with hColon
      have hLt := upTo_length_lt hColon
      obtain rfl := Option.some.inj hStart
      simp only [if_pos hColon, Option.getD_some]
      omega
    · omega
    · omega
    · omega
    · intro start hStart
      split_ifs at hStart with hQuestion
      have hLt := upTo_length_lt hQuestion
      obtain rfl := Option.some.inj hStart
      have hEnd := hParameter hQuestion
      simp only [List.length_cons] at hEnd hUrl ⊢
      omega
    · omega
    · omega

/-- The position of a hash with none behind it. -/
theorem requestEndPos_of_split {before back : Text} (h : '#' ∉ back) :
    (laidOut protcalPos front host (before ++ '#' :: back)).requestEndPos =
      front.length + host.length + before.length + 1 := by
  have hUrl : front ++ (host ++ '/' :: (before ++ '#' :: back)) =
      (front ++ host ++ '/' :: before) ++ '#' :: back := by simp
  unfold laidOut
  dsimp only
  rw [hUrl, rfind_split h, Option.getD_some]
  simp [Nat.add_assoc]

theorem requestEndPos_of_notMem (protcalPos : Option Nat) (h : '#' ∉ front ++ (host ++ rest)) :
    (laidOut protcalPos front host rest).requestEndPos =
      front.length + host.length + ('/' :: rest).length := by
  simp only [List.mem_append, not_or] at h
  unfold laidOut
  dsimp only
  rw [rfind_absent (by simp [h.1, h.2.1, h.2.2]), Option.getD_none]
  simp [Nat.add_assoc]

/-- A hash before the path is before the file. -/
theorem requestEndPos_of_front (protcalPos : Option Nat) (hMem : '#' ∈ front ++ host) (h : '#' ∉ rest) :
    (laidOut protcalPos front host rest).requestEndPos < front.length + host.length := by
  obtain ⟨before, back, hSplit, hNotMem⟩ := exists_last_split hMem
  have hUrl : front ++ (host ++ '/' :: rest) = before ++ '#' :: (back ++ '/' :: rest) := by
    rw [← List.append_assoc, hSplit, List.append_assoc, List.cons_append]
  have hLength := congrArg List.length hSplit
  simp only [List.length_append, List.length_cons] at hLength
  unfold laidOut
  dsimp only
  rw [hUrl, rfind_split (by simp [hNotMem, h]), Option.getD_some]
  omega

/-- The last hash is behind the beginnings of the file and of the parameters. -/
theorem hash_behind_iff (before back : Text) :
    ((upToLast '/' ('/' :: upTo '?' (before ++ '#' :: back))).length ≤ before.length ∧
      ('?' ∈ before ++ '#' :: back →
        ('/' :: upTo '?' (before ++ '#' :: back)).length ≤ before.length)) ↔
      ('?' ∈ before ∨ '?' ∉ back ∧ '/' ∉ back) := by
  by_cases hBefore : '?' ∈ before
  · have hLt := upTo_length_lt hBefore
    have hUpTo : upTo '?' (before ++ '#' :: back) = upTo '?' before := by
      obtain ⟨a, b, rfl, hNotMem⟩ := List.eq_append_cons_of_mem hBefore
      rw [List.append_assoc, List.cons_append, upTo_split hNotMem, upTo_split hNotMem]
    have hFile := upToLast_length_lt (List.mem_cons_self (a := '/') (l := upTo '?' before))
    rw [hUpTo]
    simp only [List.length_cons] at hFile ⊢
    simp only [hBefore, true_or, iff_true]
    exact ⟨by omega, fun _ => by omega⟩
  · have hUpTo : upTo '?' (before ++ '#' :: back) = before ++ '#' :: upTo '?' back := by
      rw [upTo_append hBefore]
      simp [upTo]
    rw [hUpTo]
    by_cases hBack : '?' ∈ back
    · simp [hBefore, hBack]
    · rw [upTo_of_notMem hBack]
      by_cases hSlash : '/' ∈ back
      · have hLast : upToLast '/' ('/' :: (before ++ '#' :: back)) =
            ('/' :: before ++ ['#']) ++ upToLast '/' back := by
          rw [← upToLast_append hSlash]
          simp
        rw [hLast]
        simp [hBefore, hSlash]
      · have hLast : upToLast '/' ('/' :: (before ++ '#' :: back)) =
            upToLast '/' ('/' :: before) := by
          rw [← List.cons_append]
          exact upToLast_append_of_notMem (by simp [hSlash]) (List.mem_cons_self ..)
        have hFile := upToLast_length_lt (List.mem_cons_self (a := '/') (l := before))
        rw [hLast]
        simp only [List.length_cons] at hFile
        simp only [List.mem_append, List.mem_cons, hBefore, hBack, hSlash]
        simp
        omega

end Substrings

/-- The accessors of every URL take their substrings in order exactly where its last hash is
behind what they take. -/
theorem substringsInOrder_iff (text : Text) :
    SubstringsInOrder (parseurl text) ↔ HashInOrder text := by
  obtain ⟨front, hText, -, hParse⟩ := parseurl_eq text
  rw [hParse, substringsInOrder_iff_hash]
  unfold HashInOrder
  generalize authority text = A at hText ⊢
  subst hText
  have hMem : '#' ∈ front ++ A ↔ '#' ∈ front ++ upTo '/' A ∨ '#' ∈ behind '/' A := by
    simp only [List.mem_append, mem_iff_of_cut (show '#' ≠ '/' by decide) A, or_assoc]
  by_cases hRest : '#' ∈ behind '/' A
  · obtain ⟨before, back, hSplit, hNotMem⟩ := exists_last_split hRest
    have hIff := hash_behind_iff before back
    have hHash : '#' ∈ front ++ A := hMem.mpr (Or.inr hRest)
    rw [hSplit, requestEndPos_of_split hNotMem]
    simp only [laidOut, Nat.add_le_add_iff_right, Nat.add_le_add_iff_left]
    rw [hIff]
    constructor
    · exact fun h _ => ⟨before, back, rfl, hNotMem, h⟩
    · intro h
      obtain ⟨before', back', hSame, hNotMem', hBehind⟩ := h hHash
      obtain ⟨rfl, rfl⟩ := last_split_unique hNotMem hNotMem' hSame
      exact hBehind
  · by_cases hFront : '#' ∈ front ++ upTo '/' A
    · have hBefore := requestEndPos_of_front (protcalEnd (front ++ A)) hFront hRest
      constructor
      · rintro ⟨hFile, -⟩
        simp only [laidOut] at hFile hBefore
        omega
      · intro h
        obtain ⟨before, back, hSame, -⟩ := h (hMem.mpr (Or.inl hFront))
        exact absurd (hSame ▸ by simp) hRest
    · have hNone : '#' ∉ front ++ A := fun h => (hMem.mp h).elim hFront hRest
      have hEnd := requestEndPos_of_notMem (protcalEnd (front ++ A))
        (show '#' ∉ front ++ (upTo '/' A ++ behind '/' A) by simpa [hRest] using hFront)
      have hFile := upToLast_length_lt (List.mem_cons_self (a := '/') (l := upTo '?' (behind '/' A)))
      have hPath : ('/' :: upTo '?' (behind '/' A)).length ≤ ('/' :: behind '/' A).length :=
        Nat.succ_le_succ (upTo_isPrefix '?' (behind '/' A)).length_le
      simp only [hNone, false_implies, iff_true, hEnd]
      refine ⟨?_, fun hQuestion => ?_⟩
      · simp only [laidOut]
        omega
      · have hLt := upTo_length_lt hQuestion
        simp only [List.length_cons]
        omega

/-- The decomposition is exact for the plain URLs, and the accessors of a text are safe where
its last hash is in order. -/
theorem decomposition_iff (parts : UrlParts) (hSize : parts.text.length + 1 < 2 ^ 32)
    (text : Text) :
    (parts.Exact ↔ parts.Plain) ∧ (SubstringsInOrder (parseurl text) ↔ HashInOrder text) :=
  ⟨parts.exact_iff_plain hSize, substringsInOrder_iff text⟩

/-- `http://h:1/a/f?k=v#x` -/
def urlWithAll : UrlParts where
  scheme := "http".toList
  host := "h".toList
  port := some "1".toList
  path := "/a/f".toList
  query := some "k=v".toList
  fragment := some "x".toList
  scheme_free := by decide
  host_free := by decide
  port_free := by decide
  path_slash := by decide
  path_free := by decide
  query_free := by decide

theorem decomposition_iff_urlWithAll :
    urlWithAll.Exact ∧ SubstringsInOrder (parseurl urlWithAll.text) := by
  obtain ⟨hExact, hInOrder⟩ := decomposition_iff urlWithAll (by decide) urlWithAll.text
  constructor
  · apply hExact.mpr
    refine ⟨by decide, by decide, fun fragment h => ?_⟩
    obtain rfl := Option.some.inj h
    decide
  · exact hInOrder.mpr fun _ => ⟨"a/f?k=v".toList, "x".toList, by decide, by decide, by decide⟩

/-- `http://h/p#f`, whose path is taken to end behind the fragment. -/
def urlWithFragment : UrlParts where
  scheme := "http".toList
  host := "h".toList
  port := none
  path := "/p".toList
  query := none
  fragment := some "f".toList
  scheme_free := by decide
  host_free := by decide
  port_free := by decide
  path_slash := by decide
  path_free := by decide
  query_free := by decide

theorem decomposition_fails :
    ¬ ((∀ parts : UrlParts, parts.text.length + 1 < 2 ^ 32 → parts.Exact) ∧
      ∀ text : Text, SubstringsInOrder (parseurl text)) := by
  rintro ⟨hExact, -⟩
  have hPath := (hExact urlWithFragment (by decide)).path
  have hOther : (parseurl urlWithFragment.text).getpath = "/p#f".toList := by decide +kernel
  rw [hOther] at hPath
  revert hPath
  decide

end Network.Uri
