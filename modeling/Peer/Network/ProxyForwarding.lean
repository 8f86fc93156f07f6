import Peer.Network.ProxyRequest
import Peer.Network.UriExact

/-! When a proxied request is forwarded whole: the request line once and in origin form, and
all header lines but `Proxy-Connection`. -/
namespace Network

open Basis P2P

/-! ## Requests -/

/-- What a method or the name of a header is. -/
structure IsName (text : Text) : Prop where
  ne_nil : text ≠ []
  noBlank : NoBlank text
  noColon : ':' ∉ text

/-- A header line. Its value is any text in one line. -/
structure Header where
  name : Text
  value : Text
  name_ok : IsName name
  value_ok : '\r' ∉ value ∧ '\n' ∉ value

namespace Header

def text (header : Header) : Text := header.name ++ ':' :: header.value

/-- The line without the blanks around it. -/
def line (header : Header) : Text := trim header.text

def IsProxyConnection (header : Header) : Prop := header.name = proxyConnection

instance (header : Header) : Decidable header.IsProxyConnection :=
  inferInstanceAs (Decidable (_ = _))

end Header

/-- The URL of a request. -/
inductive Target where
  | origin (text : Text)
  | absolute (url : Uri.UrlParts)

namespace Target

def text : Target → Text
  | .origin text => text
  | .absolute url => url.text

/-- A path, or a URL without a fragment that the positions of a `Uri` have room for. -/
def WellFormed : Target → Prop
  | .origin text => text.head? = some '/'
  | .absolute url => url.fragment = none ∧ url.text.length + 1 < 2 ^ 32

/-- The origin form: the path, at least a slash, and the query. -/
def direct : Target → Text
  | .origin text => text
  | .absolute url => (if url.path = [] then ['/'] else url.path) ++ Uri.marked '?' url.query

end Target

/-- A well-formed header block. -/
structure RequestHead where
  method : Text
  target : Target
  version : Text
  headers : List Header
  method_ok : IsName method
  target_ok : target.WellFormed
  target_noBlank : NoBlank target.text
  version_ne : version ≠ []
  version_noBlank : NoBlank version

namespace RequestHead

def requestLine (request : RequestHead) (target : Text) : Text :=
  request.method ++ ' ' :: (target ++ ' ' :: request.version)

def text (request : RequestHead) : Text :=
  joined (request.requestLine request.target.text :: request.headers.map Header.text) ++ crlf

/-- The request as it is to be forwarded. -/
def direct (request : RequestHead) : Text :=
  joined (request.requestLine request.target.direct ::
    (request.headers.filter fun header => ¬ header.IsProxyConnection).map Header.line) ++ crlf

end RequestHead

/-! ## Header lines -/

/-- The delimiter is in the text exactly once. -/
def Once (delimiter text : Text) : Prop := ∃ front back, OnceBetween delimiter text front back

namespace Header

variable (header : Header)

theorem line_eq : header.line = header.name ++ ':' :: trimRight header.value := by
  obtain ⟨c, rest, hName⟩ := List.exists_cons_of_ne_nil header.name_ok.ne_nil
  have hFirst := header.name_ok.noBlank c (hName ▸ List.mem_cons_self ..)
  unfold line trim text
  rw [hName, List.cons_append, trimLeft_cons hFirst, ← List.cons_append,
    trimRight_append_cons (by decide)]

theorem mem_trimRight {c : Char} {text : Text} (h : c ∈ trimRight text) : c ∈ text := by
  unfold trimRight trimLeft at h
  exact List.mem_reverse.mp (List.dropWhile_subset _ (List.mem_reverse.mp h))

theorem return_notMem_text : '\r' ∉ header.text := by
  unfold text
  simp only [List.mem_append, List.mem_cons, not_or]
  refine ⟨fun h => ?_, by decide, header.value_ok.1⟩
  exact absurd (header.name_ok.noBlank _ h) (by decide)

theorem return_notMem_line : '\r' ∉ header.line := by
  rw [header.line_eq]
  simp only [List.mem_append, List.mem_cons, not_or]
  refine ⟨fun h => ?_, by decide, fun h => header.value_ok.1 (mem_trimRight h)⟩
  exact absurd (header.name_ok.noBlank _ h) (by decide)

theorem line_ne_nil : header.line ≠ [] := by
  rw [header.line_eq]
  simp

/-- The name is what comes before the first colon. -/
theorem upTo_line : upTo ':' header.line = header.name := by
  rw [header.line_eq, upTo_split header.name_ok.noColon]

/-- The key of a line that is sliced in two is the name, unless the colon of the name has no
blank behind it. -/
theorem key_cases {key back : Text} (h : OnceBetween colonBlank header.line key back) :
    (key = header.name ∧ header.name ++ colonBlank <+: header.line) ∨
      (':' ∈ key ∧ ¬ header.name ++ colonBlank <+: header.line) := by
  have hLine := header.line_eq
  have hColon := header.name_ok.noColon
  generalize header.name = name at hLine hColon ⊢
  generalize trimRight header.value = value at hLine
  have hPrefix : name ++ colonBlank <+: header.line ↔ [' '] <+: value := by
    rw [hLine, List.prefix_append_right_inj]
    simp [colonBlank]
  rw [hPrefix]
  have hEq := h.text_eq
  rw [hLine] at hEq
  rcases List.append_eq_append_iff.mp hEq with ⟨more, hKey, hRest⟩ | ⟨more, hName, hRest⟩
  · cases more with
    | nil =>
        refine Or.inl ⟨by simpa using hKey, back, ?_⟩
        simpa [colonBlank] using hRest.symm
    | cons x more =>
        obtain ⟨rfl, hValue⟩ := List.cons.inj hRest
        refine Or.inr ⟨by simp [hKey], ?_⟩
        rintro ⟨rest, hBlank⟩
        rw [← hBlank] at hValue
        cases more with
        | nil => simp [colonBlank] at hValue
        | cons y more =>
            obtain ⟨rfl, -⟩ := List.cons.inj hValue
            exact h.front ⟨name, more, by simp [hKey, colonBlank]⟩
  · cases more with
    | nil =>
        refine Or.inl ⟨by simpa using hName.symm, back, ?_⟩
        simpa [colonBlank] using hRest
    | cons x more =>
        obtain ⟨rfl, -⟩ := List.cons.inj hRest
        exact absurd (by simp [hName]) hColon

end Header

/-! ## What goes through -/

section Through

variable {slice : Text → Text → List Text}

theorem goesThrough_iff (hColon : ∀ text, Slices colonBlank text (slice text colonBlank))
    (line : Text) : goesThrough slice line = true ↔
      ∃ key back, OnceBetween colonBlank line key back ∧ trim key ≠ proxyConnection := by
  have hPair : ∀ key back, slice line colonBlank = [key, back] ↔
      OnceBetween colonBlank line key back :=
    fun key back => (hColon line).eq_pair_iff (by decide)
  unfold goesThrough
  constructor
  · intro h
    split at h
    · rename_i key back hSlice
      exact ⟨key, back, (hPair key back).mp hSlice, of_decide_eq_true h⟩
    · cases h
  · rintro ⟨key, back, hOnce, hKey⟩
    rw [(hPair key back).mpr hOnce]
    exact decide_eq_true hKey

/-- A header line goes through if the delimiter is in it once, and `Proxy-Connection` if that
is not behind the name. -/
theorem header_goesThrough_iff (hColon : ∀ text, Slices colonBlank text (slice text colonBlank))
    (header : Header) : goesThrough slice header.line = true ↔ Once colonBlank header.line ∧
      (header.IsProxyConnection → ¬ header.name ++ colonBlank <+: header.line) := by
  have hName : trim header.name = header.name :=
    trim_eq_self header.name_ok.ne_nil header.name_ok.noBlank
  rw [goesThrough_iff hColon]
  constructor
  · rintro ⟨key, back, hOnce, hKey⟩
    refine ⟨⟨key, back, hOnce⟩, fun hIs => ?_⟩
    rcases header.key_cases hOnce with ⟨rfl, -⟩ | ⟨-, hNot⟩
    · rw [hName] at hKey
      exact absurd hIs hKey
    · exact hNot
  · rintro ⟨⟨key, back, hOnce⟩, hIs⟩
    refine ⟨key, back, hOnce, fun hKey => ?_⟩
    rcases header.key_cases hOnce with ⟨rfl, hBehind⟩ | ⟨hMem, -⟩
    · rw [hName] at hKey
      exact hIs hKey hBehind
    · have hIn := mem_trim (show isSpace ':' = false by decide) hMem
      rw [hKey] at hIn
      revert hIn
      decide

/-- Before a blank the delimiter ends only with a colon. -/
theorem infix_colonBlank_iff {front back : Text} (h : ' ' ∉ front) :
    colonBlank <:+: front ++ ' ' :: back ↔
      front.getLast? = some ':' ∨ colonBlank <:+: back := by
  constructor
  · rintro ⟨before, behind, hEq⟩
    rw [List.append_assoc] at hEq
    rcases List.append_eq_append_iff.mp hEq with ⟨more, hFront, hRest⟩ | ⟨more, hBefore, hRest⟩
    · match more with
      | [] => cases hRest
      | [x] =>
          obtain ⟨rfl, -⟩ := List.cons.inj hRest
          exact Or.inl (by simp [hFront])
      | x :: y :: more =>
          obtain ⟨-, hMore⟩ := List.cons.inj hRest
          obtain ⟨rfl, -⟩ := List.cons.inj hMore
          exact absurd (by simp [hFront]) h
    · cases more with
      | nil => cases hRest
      | cons x more =>
          obtain ⟨-, hBack⟩ := List.cons.inj hRest
          exact Or.inr ⟨more, behind, by rw [List.append_assoc]; exact hBack.symm⟩
  · rintro (hLast | ⟨before, behind, rfl⟩)
    · obtain ⟨before, rfl⟩ := List.getLast?_eq_some_iff.mp hLast
      exact ⟨before, back, by simp [colonBlank]⟩
    · exact ⟨front ++ ' ' :: before, behind, by simp⟩

/-- Two words are not trimmed. -/
theorem trim_key {front back : Text} (hFront : front ≠ []) (hFrontOk : NoBlank front)
    (hBack : back ≠ []) (hBackOk : NoBlank back) :
    trim (front ++ ' ' :: back) = front ++ ' ' :: back := by
  obtain ⟨c, rest, rfl⟩ := List.exists_cons_of_ne_nil hFront
  obtain ⟨inside, d, rfl⟩ := (List.eq_nil_or_concat back).resolve_left hBack
  rw [List.concat_eq_append] at hBackOk ⊢
  have hEnds := trim_of_ends (hFrontOk c (List.mem_cons_self ..)) (hBackOk d (by simp))
    (rest ++ ' ' :: inside)
  simpa using hEnds

theorem noBlank_notMem {text : Text} (h : NoBlank text) : ' ' ∉ text :=
  fun hMem => absurd (h _ hMem) (by decide)

theorem return_notMem_of_noBlank {text : Text} (h : NoBlank text) : '\r' ∉ text :=
  fun hMem => absurd (h _ hMem) (by decide)

theorem not_infix_of_noBlank {text : Text} (h : NoBlank text) : ¬ colonBlank <:+: text := by
  rintro ⟨before, behind, rfl⟩
  exact noBlank_notMem h (by simp [colonBlank])

end Through

namespace RequestHead

variable {slice : Text → Text → List Text} (request : RequestHead)

theorem method_getLast : request.method.getLast? ≠ some ':' :=
  fun h => request.method_ok.noColon (List.mem_of_getLast? h)

theorem target_ne_colon : request.target.text ≠ [':'] := by
  have hOk := request.target_ok
  intro hColon
  cases hTarget : request.target with
  | origin text =>
      rw [hTarget] at hOk hColon
      rw [show text = [':'] from hColon] at hOk
      cases hOk
  | absolute url =>
      rw [hTarget] at hColon
      have hLength := congrArg List.length hColon
      simp [Target.text, Uri.UrlParts.text] at hLength
      omega

/-- The request line is taken for a header line if its URL ends with a colon. -/
theorem requestLine_goesThrough_iff
    (hColon : ∀ text, Slices colonBlank text (slice text colonBlank)) :
    goesThrough slice (request.requestLine request.target.text) = true ↔
      request.target.text.getLast? = some ':' := by
  have hMethod := noBlank_notMem request.method_ok.noBlank
  have hTarget := noBlank_notMem request.target_noBlank
  have hVersion := not_infix_of_noBlank request.version_noBlank
  rw [goesThrough_iff hColon]
  unfold requestLine
  constructor
  · rintro ⟨key, back, hOnce, -⟩
    have hInfix : colonBlank <:+:
        request.method ++ ' ' :: (request.target.text ++ ' ' :: request.version) :=
      ⟨key, back, by rw [hOnce.text_eq, List.append_assoc]⟩
    rw [infix_colonBlank_iff hMethod, infix_colonBlank_iff hTarget] at hInfix
    rcases hInfix with hLast | hLast | hInfix
    · exact absurd hLast request.method_getLast
    · exact hLast
    · exact absurd hInfix hVersion
  · intro hLast
    obtain ⟨before, hText⟩ := List.getLast?_eq_some_iff.mp hLast
    have hBefore : before ≠ [] := by
      rintro rfl
      exact request.target_ne_colon hText
    have hNoBlank : NoBlank before := fun c hc => request.target_noBlank c (by simp [hText, hc])
    refine ⟨request.method ++ ' ' :: before, request.version, ⟨?_, ?_, hVersion⟩, ?_⟩
    · simp [hText, colonBlank]
    · rw [infix_colonBlank_iff hMethod]
      rintro (hLast | hInfix)
      · exact request.method_getLast hLast
      · exact not_infix_of_noBlank hNoBlank hInfix
    · rw [trim_key request.method_ok.ne_nil request.method_ok.noBlank hBefore hNoBlank]
      intro hKey
      have hMem : ' ' ∈ proxyConnection := by simp [← hKey]
      revert hMem
      decide

/-- The URL that stands in the rewritten request line. -/
def forwardedTarget : Text :=
  if httpUrl.isPrefixOf (toLower request.target.text) then
    (Uri.parseurl request.target.text).getrequest
  else request.target.text

theorem directRequestLine_eq : directRequestLine (request.requestLine request.target.text) =
    some (request.requestLine request.forwardedTarget) := by
  have hSplit : (request.requestLine request.target.text).splitOn ' ' =
      [request.method, request.target.text, request.version] := by
    unfold requestLine
    rw [List.splitOn_append_cons_self, List.splitOn_append_cons_self,
      List.splitOn_eq_singleton (noBlank_notMem request.method_ok.noBlank),
      List.splitOn_eq_singleton (noBlank_notMem request.target_noBlank),
      List.splitOn_eq_singleton (noBlank_notMem request.version_noBlank)]
    rfl
  unfold directRequestLine forwardedTarget
  rw [hSplit]
  dsimp only
  split_ifs <;> rfl

theorem trim_requestLine :
    trim (request.requestLine request.target.text) = request.requestLine request.target.text := by
  obtain ⟨c, rest, hMethod⟩ := List.exists_cons_of_ne_nil request.method_ok.ne_nil
  obtain ⟨inside, d, hVersion⟩ :=
    (List.eq_nil_or_concat request.version).resolve_left request.version_ne
  rw [List.concat_eq_append] at hVersion
  have hFirst := request.method_ok.noBlank c (by simp [hMethod])
  have hLast := request.version_noBlank d (by simp [hVersion])
  have hEnds := trim_of_ends hFirst hLast (rest ++ ' ' :: (request.target.text ++ ' ' :: inside))
  unfold requestLine
  rw [hMethod, hVersion]
  simpa using hEnds

theorem return_notMem_requestLine {target : Text} (h : '\r' ∉ target) :
    '\r' ∉ request.requestLine target := by
  have hMethod := return_notMem_of_noBlank request.method_ok.noBlank
  have hVersion := return_notMem_of_noBlank request.version_noBlank
  unfold requestLine
  simp [h, hMethod, hVersion]

/-- The loop behind the request line. -/
theorem directLines_headers (slice : Text → Text → List Text) (headers : List Header)
    (direct : Text) : directLines slice false direct (headers.map Header.text ++ [[], []]) =
      some (direct ++ joined ((headers.filter fun header =>
        goesThrough slice header.line).map Header.line) ++ crlf) := by
  induction headers generalizing direct with
  | nil => simp [directLines, trim, trimLeft, trimRight, joined]
  | cons header headers ih =>
      rw [List.map_cons, List.cons_append, directLines]
      dsimp only
      rw [show trim header.text = header.line from rfl, if_neg header.line_ne_nil,
        if_neg (by simp)]
      dsimp only
      rw [ih]
      by_cases h : goesThrough slice header.line = true
      · simp [h, joined_cons, crlf]
      · simp [h]

/-- The lines of the result. -/
def forwarded (slice : Text → Text → List Text) : List Text :=
  request.requestLine request.forwardedTarget ::
    ((if goesThrough slice (request.requestLine request.target.text) then
        [request.requestLine request.target.text] else []) ++
      (request.headers.filter fun header => goesThrough slice header.line).map Header.line)

theorem proxyRequestToDirectRequest_eq
    (hLines : ∀ text, Slices crlf text (slice text crlf)) :
    proxyRequestToDirectRequest slice request.text =
      joined (request.forwarded slice) ++ crlf := by
  have hReturn : ∀ line ∈ request.requestLine request.target.text ::
      request.headers.map Header.text, '\r' ∉ line := by
    intro line hLine
    rcases List.mem_cons.mp hLine with rfl | hHeader
    · exact request.return_notMem_requestLine (return_notMem_of_noBlank request.target_noBlank)
    · obtain ⟨header, -, rfl⟩ := List.mem_map.mp hHeader
      exact header.return_notMem_text
  have hSlice : slice request.text crlf =
      (request.requestLine request.target.text :: request.headers.map Header.text) ++ [[], []] := by
    refine (hLines request.text).unique (by decide)
      (slices_block fun line hLine => clean_of_notMem (hReturn line hLine)) ?_ (by simp)
    intro hNil
    have hText := (hLines request.text).text_eq
    rw [hNil] at hText
    simp [text, crlf] at hText
  have hNe : request.requestLine request.target.text ≠ [] := by simp [requestLine]
  unfold proxyRequestToDirectRequest
  rw [hSlice, List.cons_append, directLines]
  dsimp only
  rw [request.trim_requestLine, if_neg hNe, if_pos rfl, request.directRequestLine_eq]
  dsimp only [Option.map_some]
  rw [directLines_headers, Option.getD_some]
  unfold forwarded
  rw [joined_cons, joined_append]
  split_ifs <;> simp [joined, crlf]

end RequestHead

/-! ## The URL -/

section Targets

/-- The lower case of a scheme stays before the colon. -/
theorem http_isPrefixOf_iff (url : Uri.UrlParts) :
    httpUrl.isPrefixOf (toLower url.text) = true ↔ toLower url.scheme = "http".toList := by
  have hColon : ':' ∉ toLower url.scheme := by
    intro h
    obtain ⟨c, hc, hLower⟩ := List.mem_map.mp h
    exact toLower_ne (by decide) (fun hEq : c = ':' => url.scheme_free.1 (hEq ▸ hc)) hLower
  have hText : ∃ rest, toLower url.text = toLower url.scheme ++ ':' :: '/' :: '/' :: rest := by
    refine ⟨toLower (url.authority ++ (url.request ++ Uri.marked '#' url.fragment)), ?_⟩
    unfold toLower Uri.UrlParts.text
    rw [List.map_append, List.map_append]
    rfl
  obtain ⟨rest, hText⟩ := hText
  rw [hText, List.isPrefixOf_iff_prefix]
  constructor
  · rintro ⟨back, hBack⟩
    have hHttp : upTo ':' ("http".toList ++ ':' :: ('/' :: '/' :: back)) = "http".toList :=
      upTo_split (by decide)
    rw [← upTo_split hColon, ← hBack, ← hHttp]
    rfl
  · intro hScheme
    rw [hScheme]
    exact ⟨rest, rfl⟩

/-- The scheme is `http`, and without a path there is no query. -/
def Target.Rewritten : Target → Prop
  | .origin _ => True
  | .absolute url => toLower url.scheme = "http".toList ∧ (url.path ≠ [] ∨ url.query = none)

theorem noDot_of_http {scheme : Text} (h : toLower scheme = "http".toList) : '.' ∉ scheme := by
  intro hDot
  have hLower : '.' ∈ toLower scheme := List.mem_map.mpr ⟨'.', hDot, by decide⟩
  rw [h] at hLower
  revert hLower
  decide

/-- The request of a URL with `http` and no fragment. -/
theorem getrequest_eq_iff (url : Uri.UrlParts) (hFragment : url.fragment = none)
    (hSize : url.text.length + 1 < 2 ^ 32) (hScheme : toLower url.scheme = "http".toList) :
    (Uri.parseurl url.text).getrequest = (Target.absolute url).direct ↔
      (url.path ≠ [] ∨ url.query = none) := by
  have hDot := noDot_of_http hScheme
  unfold Target.direct
  dsimp only
  by_cases hPath : url.path = []
  · obtain ⟨front, hText, -, hParse⟩ := Uri.parseurl_eq url.text
    have hLength := Uri.withSlash_length front (Uri.authority url.text)
    rw [← hText] at hLength
    have hAuthority := url.authority_text hDot
    have hMarked : url.request ++ Uri.marked '#' url.fragment = Uri.marked '?' url.query := by
      simp [Uri.UrlParts.request, hPath, hFragment, Uri.marked]
    rw [hMarked] at hAuthority
    rw [hParse, Uri.laidOut_getrequest (by omega), hAuthority, behind_append url.slash_notMem_authority,
      if_pos hPath]
    simp only [hPath, ne_eq, not_true_eq_false, false_or]
    cases hQuery : url.query with
    | none => simp [Uri.marked, upToLast_of_notMem]
    | some query =>
        -- what follows a slash of the query is shorter than the query with its mark
        have hShort := (upToLast_isPrefix '#' ('/' :: behind '/' ('?' :: query))).length_le
        have hBehind := behind_length_le '/' query
        rw [← List.singleton_append (x := '?'), behind_append (by decide)] at hShort
        simp only [reduceCtorEq, iff_false]
        intro hEq
        have hLengths := congrArg List.length hEq
        simp only [Uri.marked, Option.elim_some] at hLengths
        rw [← List.singleton_append (x := '?'), behind_append (by decide)] at hLengths
        simp only [List.length_append, List.length_cons, List.length_nil] at hLengths hShort
        omega
  · have hPlain : url.Plain :=
      ⟨hDot, hPath, fun f hf => by rw [hFragment] at hf; cases hf⟩
    rw [(hPlain.exact url hSize).request, if_neg hPath]
    simp [Uri.UrlParts.request, hPath]

end Targets

/-! ## Forwarding -/

/-- The header line goes through exactly if it is to. -/
def Header.PassesRight (header : Header) : Prop :=
  if header.IsProxyConnection then
    Once colonBlank header.line → header.name ++ colonBlank <+: header.line
  else Once colonBlank header.line

namespace RequestHead

variable {slice : Text → Text → List Text} (request : RequestHead)

/-- The URL can be rewritten and does not end with a colon; each line that is to go through
has the delimiter once, and no `Proxy-Connection` has it once but not behind its name. -/
structure Forwardable : Prop where
  target : request.target.Rewritten
  colon : request.target.text.getLast? ≠ some ':'
  headers : ∀ header ∈ request.headers, header.PassesRight

theorem passesRight_iff (hColon : ∀ text, Slices colonBlank text (slice text colonBlank))
    (header : Header) : header.PassesRight ↔
      (goesThrough slice header.line = true ↔ ¬ header.IsProxyConnection) := by
  rw [header_goesThrough_iff hColon]
  unfold Header.PassesRight
  split_ifs with hIs
  · simp [hIs]
  · simp [hIs]

theorem forwardedTarget_eq_iff :
    request.forwardedTarget = request.target.direct ↔ request.target.Rewritten := by
  have hOk := request.target_ok
  unfold forwardedTarget
  cases hTarget : request.target with
  | origin text =>
      rw [hTarget] at hOk
      obtain ⟨rest, rfl⟩ := List.head?_eq_some_iff.mp hOk
      have hNot : ¬ httpUrl.isPrefixOf (toLower (Target.origin ('/' :: rest)).text) = true := by
        intro h
        obtain ⟨back, hBack⟩ := List.isPrefixOf_iff_prefix.mp h
        have hHead : some 'h' = some ('/').toLower := congrArg List.head? hBack
        revert hHead
        decide
      rw [if_neg hNot]
      simp [Target.text, Target.direct, Target.Rewritten]
  | absolute url =>
      rw [hTarget] at hOk
      have hPrefix : httpUrl.isPrefixOf (toLower (Target.absolute url).text) = true ↔
          toLower url.scheme = "http".toList := http_isPrefixOf_iff url
      by_cases hScheme : toLower url.scheme = "http".toList
      · have hGet := getrequest_eq_iff url hOk.1 hOk.2 hScheme
        rw [if_pos (hPrefix.mpr hScheme)]
        exact hGet.trans (and_iff_right hScheme).symm
      · rw [if_neg fun h => hScheme (hPrefix.mp h)]
        refine iff_of_false (fun hEq => ?_) fun h => hScheme h.1
        -- a URL does not begin with a slash
        have hHead : url.text.head? ≠ some '/' := by
          have hSlash := url.scheme_free.2
          unfold Uri.UrlParts.text
          cases hCase : url.scheme with
          | nil => simp
          | cons c rest =>
              rw [hCase] at hSlash
              simpa using fun h : c = '/' => hSlash (by simp [h])
        apply hHead
        rw [show url.text = (Target.absolute url).direct from hEq]
        unfold Target.direct
        rcases url.path_slash with hNil | hPath
        · simp [hNil]
        · obtain ⟨rest, hRest⟩ := List.head?_eq_some_iff.mp hPath
          simp [hRest]

theorem requestLine_inj {target target' : Text} :
    request.requestLine target = request.requestLine target' ↔ target = target' := by
  unfold requestLine
  simp

/-- A header line is no request line. -/
theorem requestLine_ne_line (header : Header) (target : Text) :
    request.requestLine target ≠ header.line := by
  intro hEq
  have hUpTo := header.upTo_line
  rw [← hEq] at hUpTo
  unfold requestLine at hUpTo
  rw [upTo_append request.method_ok.noColon] at hUpTo
  have hMem : ' ' ∈ header.name := by
    rw [← hUpTo]
    simp [upTo]
  exact noBlank_notMem header.name_ok.noBlank hMem

/-- The lines of two choices are the same if the same headers are chosen, where a line tells
whether its header is. -/
theorem filter_lines_eq_iff (p q : Header → Bool) (headers : List Header)
    (hLine : ∀ header header', header.line = header'.line → q header = q header') :
    (headers.filter p).map Header.line = (headers.filter q).map Header.line ↔
      ∀ header ∈ headers, (p header = true ↔ q header = true) := by
  constructor
  · intro hEq
    have hChosen : ∀ header ∈ headers, p header = true → q header = true := by
      intro header hMem hp
      have hIn : header.line ∈ (headers.filter q).map Header.line := by
        rw [← hEq]
        exact List.mem_map_of_mem (List.mem_filter.mpr ⟨hMem, hp⟩)
      obtain ⟨header', hMem', hSame⟩ := List.mem_map.mp hIn
      rw [← hLine _ _ hSame]
      exact (List.mem_filter.mp hMem').2
    have hFilter : (headers.filter q).filter p = headers.filter p := by
      rw [List.filter_filter]
      apply List.filter_congr
      intro header hMem
      cases hp : p header with
      | true => rw [hChosen header hMem hp]; rfl
      | false => rfl
    have hLength : ((headers.filter q).filter p).length = (headers.filter q).length := by
      rw [hFilter]
      simpa using congrArg List.length hEq
    intro header hMem
    refine ⟨hChosen header hMem, fun hq => ?_⟩
    exact List.length_filter_eq_length_iff.mp hLength header (List.mem_filter.mpr ⟨hMem, hq⟩)
  · intro hSame
    rw [List.filter_congr fun header hMem => Bool.eq_iff_iff.mpr (hSame header hMem)]

/-- The request line is not doubled and the header lines pass right. -/
theorem tail_eq_iff (hColon : ∀ text, Slices colonBlank text (slice text colonBlank)) :
    (if goesThrough slice (request.requestLine request.target.text) then
        [request.requestLine request.target.text] else []) ++
      (request.headers.filter fun header => goesThrough slice header.line).map Header.line =
        (request.headers.filter fun header => ¬ header.IsProxyConnection).map Header.line ↔
      request.target.text.getLast? ≠ some ':' ∧
        ∀ header ∈ request.headers, header.PassesRight := by
  have hDouble := request.requestLine_goesThrough_iff hColon
  by_cases hEnd : request.target.text.getLast? = some ':'
  · rw [if_pos (hDouble.mpr hEnd)]
    refine iff_of_false (fun hEq => ?_) fun h => h.1 hEnd
    have hMem : request.requestLine request.target.text ∈
        (request.headers.filter fun header => ¬ header.IsProxyConnection).map Header.line := by
      rw [← hEq]
      simp
    obtain ⟨header, -, hLine⟩ := List.mem_map.mp hMem
    exact request.requestLine_ne_line header _ hLine.symm
  · rw [if_neg fun h => hEnd (hDouble.mp h), List.nil_append, filter_lines_eq_iff]
    · simp only [passesRight_iff hColon, decide_eq_true_eq]
      exact (and_iff_right hEnd).symm
    · intro header header' hLine
      have hName : header.name = header'.name := by
        rw [← header.upTo_line, hLine, header'.upTo_line]
      have hIs : header.IsProxyConnection ↔ header'.IsProxyConnection := by
        unfold Header.IsProxyConnection
        rw [hName]
      simp only [hIs]

theorem return_notMem_direct : '\r' ∉ request.target.direct := by
  have hText := return_notMem_of_noBlank request.target_noBlank
  cases hTarget : request.target with
  | origin text =>
      rw [hTarget] at hText
      exact hText
  | absolute url =>
      rw [hTarget] at hText
      simp only [Target.text, Uri.UrlParts.text, Uri.UrlParts.request, List.mem_append,
        not_or] at hText
      unfold Target.direct
      dsimp only
      split_ifs <;> simp [hText.2.2.2.1]

theorem return_notMem_forwardedTarget : '\r' ∉ request.forwardedTarget := by
  have hText := return_notMem_of_noBlank request.target_noBlank
  unfold forwardedTarget
  split_ifs
  · exact fun h => hText (Uri.mem_getrequest (by decide) h)
  · exact hText

/-- A request is forwarded whole exactly if it is forwardable. -/
theorem forwarded_iff (slice : Text → Text → List Text)
    (hLines : ∀ text, Slices crlf text (slice text crlf))
    (hColon : ∀ text, Slices colonBlank text (slice text colonBlank)) :
    proxyRequestToDirectRequest slice request.text = request.direct ↔ request.Forwardable := by
  have hReturn : ∀ line ∈ request.forwarded slice, '\r' ∉ line := by
    intro line hLine
    unfold forwarded at hLine
    simp only [List.mem_cons, List.mem_append, List.mem_map] at hLine
    rcases hLine with rfl | hDouble | ⟨header, -, rfl⟩
    · exact request.return_notMem_requestLine request.return_notMem_forwardedTarget
    · split_ifs at hDouble
      · obtain rfl := List.mem_singleton.mp hDouble
        exact request.return_notMem_requestLine
          (return_notMem_of_noBlank request.target_noBlank)
      · cases hDouble
    · exact header.return_notMem_line
  have hReturn' : ∀ line ∈ request.requestLine request.target.direct ::
      (request.headers.filter fun header => ¬ header.IsProxyConnection).map Header.line,
        '\r' ∉ line := by
    intro line hLine
    simp only [List.mem_cons, List.mem_map] at hLine
    rcases hLine with rfl | ⟨header, -, rfl⟩
    · exact request.return_notMem_requestLine request.return_notMem_direct
    · exact header.return_notMem_line
  have hLinesIff : proxyRequestToDirectRequest slice request.text = request.direct ↔
      request.forwarded slice = request.requestLine request.target.direct ::
        (request.headers.filter fun header => ¬ header.IsProxyConnection).map Header.line := by
    rw [request.proxyRequestToDirectRequest_eq hLines]
    unfold direct
    rw [List.append_left_inj]
    exact ⟨joined_injective hReturn hReturn', congrArg joined⟩
  rw [hLinesIff]
  unfold forwarded
  rw [List.cons.injEq, request.requestLine_inj, request.forwardedTarget_eq_iff,
    request.tail_eq_iff hColon]
  exact ⟨fun h => ⟨h.1, h.2.1, h.2.2⟩, fun h => ⟨h.target, h.colon, h.headers⟩⟩

/-- A `slice` for delimiters of two letters. -/
def sliceTwo (text delimiter : Text) : List Text :=
  match delimiter with
  | [a, b] => sliceAt a b text
  | _ => [text]

def hostHeader : Header := ⟨"Host".toList, " h".toList, by constructor <;> decide, by decide⟩

/-- A header for the proxy. -/
def keepAliveHeader : Header :=
  ⟨proxyConnection, " close".toList, by constructor <;> decide, by decide⟩

/-- A header whose value has a colon and a blank. -/
def titleHeader : Header := ⟨"Title".toList, " a: b".toList, by constructor <;> decide, by decide⟩

/-- `GET /p HTTP/1.1` with these headers. -/
def getWith (headers : List Header) : RequestHead where
  method := "GET".toList
  target := .origin "/p".toList
  version := "HTTP/1.1".toList
  headers := headers
  method_ok := by constructor <;> decide
  target_ok := rfl
  target_noBlank := by decide
  version_ne := by decide
  version_noBlank := by decide

theorem forwarded_iff_hostHeader :
    proxyRequestToDirectRequest sliceTwo (getWith [hostHeader, keepAliveHeader]).text =
      (getWith [hostHeader, keepAliveHeader]).direct := by
  refine ((getWith [hostHeader, keepAliveHeader]).forwarded_iff sliceTwo
    (slices_sliceAt '\r' '\n') (slices_sliceAt ':' ' ')).mpr ⟨trivial, by decide, ?_⟩
  intro header hMem
  rcases List.mem_pair.mp hMem with rfl | rfl
  · exact ⟨"Host".toList, "h".toList, by decide, by decide, by decide⟩
  · exact fun _ => ⟨"close".toList, by decide⟩

theorem forwarded_fails :
    ¬ ∀ (slice : Text → Text → List Text) (request : RequestHead),
      (∀ text, Slices crlf text (slice text crlf)) →
      (∀ text, Slices colonBlank text (slice text colonBlank)) →
      proxyRequestToDirectRequest slice request.text = request.direct := by
  intro hAll
  have hSame := hAll sliceTwo (getWith [titleHeader]) (slices_sliceAt '\r' '\n')
    (slices_sliceAt ':' ' ')
  have hOther : proxyRequestToDirectRequest sliceTwo (getWith [titleHeader]).text ≠
      (getWith [titleHeader]).direct := by decide +kernel
  exact hOther hSame

end RequestHead

end Network
