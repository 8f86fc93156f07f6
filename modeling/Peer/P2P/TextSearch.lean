import Peer.Basis.Cut
import Peer.P2P.Text

/-! The searches of `std::string`, told by what they cut the text into. -/
namespace P2P.Text

open Basis

variable {front before back text key : Text} {c d : Char} {n start : Nat}

theorem find_absent (h : c ∉ back) : find (front ++ back) c front.length = none := by
  unfold find
  rw [List.drop_left, List.findIdx?_eq_none_iff.mpr]
  · rfl
  · intro x hx
    simpa using fun hEq : x = c => h (hEq ▸ hx)

theorem find_split (h : c ∉ before) (front back : Text) :
    find (front ++ (before ++ c :: back)) c front.length = some (front.length + before.length) := by
  have hBefore : before.findIdx? (· == c) = none := by
    rw [List.findIdx?_eq_none_iff]
    intro x hx
    simpa using fun hEq : x = c => h (hEq ▸ hx)
  unfold find
  rw [List.drop_left, List.findIdx?_append, hBefore]
  simp [List.findIdx?_cons]

/-- The first place from a position on, with what comes before it. -/
theorem find_eq (front text : Text) (c : Char) : find (front ++ text) c front.length =
    if c ∈ text then some (front.length + (upTo c text).length) else none := by
  by_cases h : c ∈ text
  · obtain ⟨before, back, rfl, hNotMem⟩ := List.eq_append_cons_of_mem h
    rw [find_split hNotMem, if_pos h, upTo_split hNotMem]
  · rw [find_absent h, if_neg h]

theorem find_zero (text : Text) (c : Char) :
    find text c 0 = if c ∈ text then some (upTo c text).length else none := by
  simpa using find_eq [] text c

theorem le_of_find (h : find text c start = some n) : start ≤ n := by
  unfold find at h
  obtain ⟨offset, -, rfl⟩ := Option.map_eq_some_iff.mp h
  exact Nat.le_add_right start offset

theorem lt_of_find (h : find text c start = some n) : n < text.length := by
  unfold find at h
  obtain ⟨offset, hOffset, rfl⟩ := Option.map_eq_some_iff.mp h
  obtain ⟨hLt, -⟩ := List.findIdx?_eq_some_iff_getElem.mp hOffset
  rw [List.length_drop] at hLt
  omega

theorem rfind_absent (h : c ∉ text) : rfind text c = none := by
  unfold rfind
  rw [List.findIdx?_eq_none_iff.mpr]
  · rfl
  · intro x hx
    simpa using fun hEq : x = c => h (hEq ▸ List.mem_reverse.mp hx)

theorem rfind_split (h : c ∉ back) : rfind (before ++ c :: back) c = some before.length := by
  have hBack : back.reverse.findIdx? (· == c) = none := by
    rw [List.findIdx?_eq_none_iff]
    intro x hx
    simpa using fun hEq : x = c => h (hEq ▸ List.mem_reverse.mp hx)
  unfold rfind
  rw [List.reverse_append, List.reverse_cons, List.append_assoc, List.findIdx?_append, hBack]
  simp [List.findIdx?_cons]

theorem substr_split (front text back : Text) :
    substr (front ++ (text ++ back)) front.length text.length = text := by
  unfold substr
  rw [List.drop_left, List.take_left]

/-- The first place of a pattern, with what comes behind it. -/
theorem findText_eq_none_iff : findText key text = none ↔ behindPattern key text = none := by
  induction text with
  | nil => simp [findText, behindPattern]
  | cons x rest ih =>
      unfold findText behindPattern
      split
      · simp
      · simpa using ih

theorem behindPattern_of_findText (h : findText key text = some n) :
    ∃ before back, text = before ++ (key ++ back) ∧ before.length = n ∧
      behindPattern key text = some back := by
  induction text generalizing n with
  | nil =>
      unfold findText at h
      split at h
      · rename_i hKey
        obtain rfl := Option.some.inj h
        obtain rfl : key = [] := by simpa using hKey
        exact ⟨[], [], rfl, rfl, rfl⟩
      · cases h
  | cons x rest ih =>
      unfold findText at h
      unfold behindPattern
      split at h
      · rename_i hKey
        obtain rfl := Option.some.inj h
        obtain ⟨back, hBack⟩ := List.isPrefixOf_iff_prefix.mp hKey
        refine ⟨[], back, by simpa using hBack.symm, rfl, ?_⟩
        rw [if_pos hKey, ← hBack, List.drop_left]
      · rename_i hKey
        obtain ⟨m, hRest, rfl⟩ := Option.map_eq_some_iff.mp h
        obtain ⟨before, back, hSplit, rfl, hBehind⟩ := ih hRest
        refine ⟨x :: before, back, by rw [hSplit, List.cons_append], rfl, ?_⟩
        rw [if_neg hKey, hBehind]

end P2P.Text
