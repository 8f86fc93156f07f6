import Mathlib.Data.List.Infix

/-! A text sliced at every place of a delimiter. The places of a delimiter of two different
letters do not overlap, so there is only one way to slice a text. -/
namespace Basis

universe u

variable {α : Type u} {a b : α} {text : List α} {parts parts' : List (List α)}

/-- The parts with the delimiter between them are the text, and no part has the delimiter
inside. -/
structure Slices (delimiter text : List α) (parts : List (List α)) : Prop where
  text_eq : delimiter.intercalate parts = text
  inside : ∀ part ∈ parts, ¬ delimiter <:+: part

/-- The delimiter is once in the text, between these two parts. -/
structure OnceBetween (delimiter text front back : List α) : Prop where
  text_eq : text = front ++ (delimiter ++ back)
  front : ¬ delimiter <:+: front
  back : ¬ delimiter <:+: back

/-- What comes behind the first part. -/
def slicesTail (a b : α) : List (List α) → List α
  | [] => []
  | part :: parts => a :: b :: [a, b].intercalate (part :: parts)

theorem intercalate_cons (a b : α) (part : List α) (parts : List (List α)) :
    [a, b].intercalate (part :: parts) = part ++ slicesTail a b parts := by
  cases parts with
  | nil => simp [slicesTail]
  | cons next parts => simp [slicesTail, List.intercalate_cons_cons]

/-- It is nothing or begins with the delimiter. -/
theorem slicesTail_cases (a b : α) (parts : List (List α)) :
    slicesTail a b parts = [] ∨ ∃ rest, slicesTail a b parts = a :: b :: rest := by
  cases parts with
  | nil => exact Or.inl rfl
  | cons part parts => exact Or.inr ⟨_, rfl⟩

/-- A first part that goes on would have the delimiter inside. -/
theorem first_part_eq {front front' back back' : List α} (hNe : a ≠ b)
    (hInside : ¬ [a, b] <:+: front') (hBack : back = [] ∨ ∃ rest, back = a :: b :: rest)
    (hBack' : back' = [] ∨ ∃ rest, back' = a :: b :: rest) {more : List α}
    (hFront : front' = front ++ more) (hRest : back = more ++ back') : more = [] := by
  match more with
  | [] => rfl
  | [x] =>
      rcases hBack with rfl | ⟨rest, rfl⟩
      · cases hRest
      · obtain ⟨rfl, hTail⟩ := List.cons.inj hRest
        rcases hBack' with rfl | ⟨rest', rfl⟩
        · cases hTail
        · exact absurd (List.cons.inj hTail).1.symm hNe
  | x :: y :: rest' =>
      rcases hBack with rfl | ⟨rest, rfl⟩
      · cases hRest
      · obtain ⟨rfl, hTail⟩ := List.cons.inj hRest
        obtain ⟨rfl, -⟩ := List.cons.inj hTail
        exact absurd ⟨front, rest', by simp [hFront]⟩ hInside

theorem Slices.unique (hNe : a ≠ b) (h : Slices [a, b] text parts)
    (h' : Slices [a, b] text parts') (hSome : parts ≠ []) (hSome' : parts' ≠ []) :
    parts = parts' := by
  induction parts generalizing text parts' with
  | nil => exact absurd rfl hSome
  | cons part parts ih =>
      obtain ⟨part', parts', rfl⟩ := List.exists_cons_of_ne_nil hSome'
      have hEq : part ++ slicesTail a b parts = part' ++ slicesTail a b parts' := by
        rw [← intercalate_cons, ← intercalate_cons, h.text_eq, h'.text_eq]
      have hTail := slicesTail_cases a b parts
      have hTail' := slicesTail_cases a b parts'
      obtain ⟨rfl, hRest⟩ : part = part' ∧ slicesTail a b parts = slicesTail a b parts' := by
        rcases List.append_eq_append_iff.mp hEq with ⟨more, hMore, hRest⟩ | ⟨more, hMore, hRest⟩
        · obtain rfl := first_part_eq hNe (h'.inside _ (List.mem_cons_self ..)) hTail hTail'
            hMore hRest
          exact ⟨by simpa using hMore.symm, by simpa using hRest⟩
        · obtain rfl := first_part_eq hNe (h.inside _ (List.mem_cons_self ..)) hTail' hTail
            hMore hRest
          exact ⟨by simpa using hMore, by simpa using hRest.symm⟩
      cases parts with
      | nil =>
          cases parts' with
          | nil => rfl
          | cons next' parts' => cases hRest
      | cons next parts =>
          cases parts' with
          | nil => cases hRest
          | cons next' parts' =>
              have hText := (List.cons.inj (List.cons.inj hRest).2).2
              have hMore : Slices [a, b] ([a, b].intercalate (next :: parts)) (next :: parts) :=
                ⟨rfl, fun p hp => h.inside p (List.mem_cons_of_mem _ hp)⟩
              have hMore' : Slices [a, b] ([a, b].intercalate (next :: parts)) (next' :: parts') :=
                ⟨hText.symm, fun p hp => h'.inside p (List.mem_cons_of_mem _ hp)⟩
              rw [ih hMore hMore' (List.cons_ne_nil _ _) (List.cons_ne_nil _ _)]

/-- A text is sliced in two exactly if the delimiter is in it once. -/
theorem Slices.eq_pair_iff (hNe : a ≠ b) (h : Slices [a, b] text parts) {front back : List α} :
    parts = [front, back] ↔ OnceBetween [a, b] text front back := by
  constructor
  · rintro rfl
    refine ⟨?_, h.inside _ (by simp), h.inside _ (by simp)⟩
    rw [← h.text_eq]
    simp [List.intercalate_cons_cons]
  · intro hOnce
    have hPair : Slices [a, b] text [front, back] := by
      refine ⟨?_, ?_⟩
      · rw [hOnce.text_eq]
        simp [List.intercalate_cons_cons]
      · rintro part hPart
        rcases List.mem_pair.mp hPart with rfl | rfl
        · exact hOnce.front
        · exact hOnce.back
    refine h.unique hNe hPair ?_ (List.cons_ne_nil _ _)
    rintro rfl
    have hText := h.text_eq
    rw [hOnce.text_eq] at hText
    simp at hText

section SliceAt

variable [DecidableEq α]

/-- The text sliced from the left. -/
def sliceAt (a b : α) : List α → List (List α)
  | [] => [[]]
  | [x] => [[x]]
  | x :: y :: rest =>
    if x = a ∧ y = b then [] :: sliceAt a b rest
    else
      match sliceAt a b (y :: rest) with
      | [] => [[x]]
      | part :: parts => (x :: part) :: parts

/-- There is a first part, which begins as the text does. -/
theorem exists_sliceAt (a b : α) (text : List α) :
    ∃ part parts, sliceAt a b text = part :: parts ∧ (part = [] ∨ part.head? = text.head?) := by
  match text with
  | [] => exact ⟨[], [], rfl, Or.inl rfl⟩
  | [x] => exact ⟨[x], [], rfl, Or.inr rfl⟩
  | x :: y :: rest =>
      rw [sliceAt]
      split_ifs
      · exact ⟨[], _, rfl, Or.inl rfl⟩
      · obtain ⟨part, parts, hMore, -⟩ := exists_sliceAt a b (y :: rest)
        rw [hMore]
        exact ⟨x :: part, parts, rfl, Or.inr rfl⟩

theorem slices_sliceAt (a b : α) (text : List α) : Slices [a, b] text (sliceAt a b text) := by
  match text with
  | [] => exact ⟨rfl, by simp [sliceAt]⟩
  | [x] =>
      refine ⟨by simp [sliceAt], ?_⟩
      intro part hPart hInfix
      obtain rfl := List.mem_singleton.mp hPart
      have hLength := hInfix.length_le
      simp at hLength
  | x :: y :: rest =>
      rw [sliceAt]
      split_ifs with hHere
      · obtain ⟨rfl, rfl⟩ := hHere
        have hMore := slices_sliceAt x y rest
        obtain ⟨part, parts, hParts, -⟩ := exists_sliceAt x y rest
        refine ⟨?_, ?_⟩
        · rw [List.intercalate_cons_of_ne_nil (by rw [hParts]; simp), hMore.text_eq]
          simp
        · intro p hp
          rcases List.mem_cons.mp hp with rfl | hMem
          · simp
          · exact hMore.inside p hMem
      · have hMore := slices_sliceAt a b (y :: rest)
        obtain ⟨part, parts, hParts, hHead⟩ := exists_sliceAt a b (y :: rest)
        rw [hParts] at hMore ⊢
        dsimp only
        refine ⟨?_, ?_⟩
        · have hText := hMore.text_eq
          rw [intercalate_cons] at hText ⊢
          rw [List.cons_append, hText]
        · intro p hp
          rcases List.mem_cons.mp hp with rfl | hMem
          · intro hInfix
            rcases List.infix_cons_iff.mp hInfix with hPrefix | hInside
            · obtain ⟨rfl, hNext⟩ := List.cons_prefix_cons.mp hPrefix
              rcases hHead with rfl | hHead
              · simp at hNext
              · obtain ⟨more, hMoreEq⟩ := hNext
                rw [← hMoreEq] at hHead
                exact hHere ⟨rfl, by simpa using hHead.symm⟩
            · exact hMore.inside part (List.mem_cons_self ..) hInside
          · exact hMore.inside p (List.mem_cons_of_mem _ hMem)

end SliceAt

end Basis
