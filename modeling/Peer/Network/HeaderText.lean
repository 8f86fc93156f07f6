import Peer.Basis.Cut
import Peer.Basis.Slices
import Peer.P2P.Text

/-! The text of HTTP headers: blanks, cases and lines. -/
namespace Network

open Basis P2P

/-- A blank of `boost::algorithm::trim`, in the classic locale. -/
def isSpace (c : Char) : Bool := c = ' ' ∨ ('\t' ≤ c ∧ c ≤ '\r')

def trimLeft (text : Text) : Text := text.dropWhile isSpace

def trimRight (text : Text) : Text := (trimLeft text.reverse).reverse

/-- `boost::algorithm::trim`. -/
def trim (text : Text) : Text := trimRight (trimLeft text)

def crlf : Text := ['\r', '\n']

def toLower (text : Text) : Text := text.map Char.toLower

/-- Lines with their ends. -/
def joined (lines : List Text) : Text := lines.flatMap (· ++ crlf)

/-! ## Blanks -/

section Blanks

variable {c : Char} {front back text : Text}

/-- A text without blanks. -/
def NoBlank (text : Text) : Prop := ∀ c ∈ text, isSpace c = false

instance (text : Text) : Decidable (NoBlank text) :=
  List.decidableBAll (fun c => isSpace c = false) text

theorem trimLeft_cons (h : isSpace c = false) (back : Text) : trimLeft (c :: back) = c :: back := by
  simp [trimLeft, h]

/-- From the right only what comes behind a letter is trimmed. -/
theorem trimRight_append_cons (h : isSpace c = false) (front back : Text) :
    trimRight (front ++ c :: back) = front ++ c :: trimRight back := by
  unfold trimRight trimLeft
  rw [List.reverse_append, List.reverse_cons, List.append_assoc, List.singleton_append,
    List.dropWhile_append]
  split
  · rename_i hEmpty
    rw [List.isEmpty_iff.mp hEmpty, List.dropWhile_cons_of_neg (by simp [h])]
    simp
  · simp

@[simp] theorem trimRight_nil : trimRight [] = [] := rfl

/-- A text between two letters is not trimmed. -/
theorem trim_of_ends {d : Char} (hFirst : isSpace c = false) (hLast : isSpace d = false)
    (text : Text) : trim (c :: (text ++ [d])) = c :: (text ++ [d]) := by
  unfold trim
  rw [trimLeft_cons hFirst, ← List.cons_append, trimRight_append_cons hLast, trimRight_nil]

theorem trim_eq_self (hSome : text ≠ []) (h : NoBlank text) : trim text = text := by
  obtain ⟨c, rest, rfl⟩ := List.exists_cons_of_ne_nil hSome
  have hFirst := h c (List.mem_cons_self ..)
  rcases List.eq_nil_or_concat rest with rfl | ⟨inside, d, rfl⟩
  · unfold trim
    rw [trimLeft_cons hFirst, ← List.nil_append [c], trimRight_append_cons hFirst, trimRight_nil]
  · rw [List.concat_eq_append] at h ⊢
    exact trim_of_ends hFirst (h d (by simp)) inside

/-- A letter stays where blanks are trimmed. -/
theorem mem_trim (hLetter : isSpace c = false) (h : c ∈ text) : c ∈ trim text := by
  have hLeft : ∀ t : Text, c ∈ t → c ∈ trimLeft t := by
    intro t ht
    induction t with
    | nil => exact ht
    | cons x rest ih =>
        unfold trimLeft
        rw [List.dropWhile_cons]
        split
        · rename_i hBlank
          rcases List.mem_cons.mp ht with rfl | hRest
          · rw [hLetter] at hBlank
            cases hBlank
          · exact ih hRest
        · exact ht
  unfold trim trimRight
  rw [List.mem_reverse]
  exact hLeft _ (List.mem_reverse.mpr (hLeft _ h))

end Blanks

/-- No capital letter becomes a character before the letters. -/
theorem toLower_ne {c d : Char} (hd : d.val.toNat < 65) (h : c ≠ d) : c.toLower ≠ d := by
  unfold Char.toLower
  split
  · rename_i hUpper
    intro hEq
    have hVal : (c.val + ('a'.val - 'A'.val)).toNat = d.val.toNat :=
      congrArg (fun x : Char => x.val.toNat) hEq
    have hLow : 65 ≤ c.val.toNat := UInt32.le_iff_toNat_le.mp hUpper.1
    have hHigh : c.val.toNat ≤ 90 := UInt32.le_iff_toNat_le.mp hUpper.2
    rw [UInt32.toNat_add, show ('a'.val - 'A'.val).toNat = 32 from rfl] at hVal
    omega
  · exact h

/-! ## Line ends -/

section Clean

variable {text : Text}

/-- A text without a line end inside. -/
def Clean (text : Text) : Prop := ¬ crlf <:+: text

theorem clean_of_notMem (h : '\r' ∉ text) : Clean text := by
  rintro ⟨front, back, rfl⟩
  exact h (by simp [crlf])

end Clean

/-! ## Lines -/

section Lines

variable {lines lines' : List Text}

theorem joined_cons (line : Text) (lines : List Text) :
    joined (line :: lines) = line ++ '\r' :: '\n' :: joined lines := by
  simp [joined, crlf]

theorem joined_append (lines lines' : List Text) :
    joined (lines ++ lines') = joined lines ++ joined lines' := by
  simp [joined]

/-- Lines without a carriage return are told from each other by their ends. -/
theorem joined_injective (h : ∀ line ∈ lines, '\r' ∉ line) (h' : ∀ line ∈ lines', '\r' ∉ line)
    (hEq : joined lines = joined lines') : lines = lines' := by
  induction lines generalizing lines' with
  | nil =>
      cases lines' with
      | nil => rfl
      | cons line' lines' => simp [joined, crlf] at hEq
  | cons line lines ih =>
      cases lines' with
      | nil => simp [joined, crlf] at hEq
      | cons line' lines' =>
          rw [joined_cons, joined_cons] at hEq
          have hLine : line = line' := by
            rw [← upTo_split (h line (List.mem_cons_self ..)), hEq,
              upTo_split (h' line' (List.mem_cons_self ..))]
          subst hLine
          have hRest := (List.cons.inj (List.cons.inj (List.append_cancel_left hEq)).2).2
          rw [ih (fun l hl => h l (List.mem_cons_of_mem _ hl))
            (fun l hl => h' l (List.mem_cons_of_mem _ hl)) hRest]

/-- The lines of a block and the two empty texts around its last line end. -/
theorem slices_block (h : ∀ line ∈ lines, Clean line) :
    Slices crlf (joined lines ++ crlf) (lines ++ [[], []]) := by
  constructor
  · induction lines with
    | nil => rfl
    | cons line lines ih =>
        have hMore := ih fun l hl => h l (List.mem_cons_of_mem _ hl)
        rw [List.cons_append, List.intercalate_cons_of_ne_nil (by simp), hMore, joined_cons]
        simp [crlf]
  · intro part hPart
    rcases List.mem_append.mp hPart with hLine | hEmpty
    · exact h _ hLine
    · obtain rfl : part = [] := by simpa using hEmpty
      exact clean_of_notMem (by simp)

end Lines

end Network
