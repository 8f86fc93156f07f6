import Peer.Storage.Mp4Head
import Peer.Storage.PieceParse

/-! When the scans of an MP4 head are safe. -/
namespace Storage

open Basis

namespace Mp4Spliter

variable {buf : Bytes} {p i : Nat}

theorem atomReadHeader_of_fits (h : p + 8 ≤ buf.length) :
    atomReadHeader buf p = .ok (boxAt buf p) := by
  unfold atomReadHeader Checked.read
  rw [if_pos (by omega), if_pos (by omega)]
  rfl

theorem atomReadHeader_of_outside (h : ¬ p + 8 ≤ buf.length) :
    atomReadHeader buf p = .error .readOutside := by
  unfold atomReadHeader Checked.read
  rw [if_neg (by omega)]
  rfl

section Length

variable {s t e : HeadScan}

theorem headRound_of_fits (hIn : s.p + 8 ≤ buf.length) (hFew : s.i < 2) :
    headRound buf s = .inl (s.next (boxAt buf s.p)) := by
  unfold headRound
  rw [if_pos ⟨by omega, hFew⟩, atomReadHeader_of_fits hIn]

theorem headRound_of_outside (hLt : s.p < buf.length) (hFew : s.i < 2)
    (hOut : ¬ s.p + 8 ≤ buf.length) : headRound buf s = .inr (.error .readOutside) := by
  unfold headRound
  rw [if_pos ⟨hLt, hFew⟩, atomReadHeader_of_outside hOut]

theorem headRound_of_end (h : ¬ (s.p < buf.length ∧ s.i < 2)) : headRound buf s = .inr (.ok s) := by
  unfold headRound
  rw [if_neg h]

@[simp] theorem next_p (atom : Atom) : (s.next atom).p = atom.stop := by
  unfold HeadScan.next
  split_ifs <;> rfl

theorem next_i (atom : Atom) : (s.next atom).i = if atom.IsHead then s.i + 1 else s.i := by
  unfold HeadScan.next Atom.IsHead
  split_ifs <;> simp_all

/-- The position and the number of boxes counted. -/
def HeadScan.At (s : HeadScan) (box : Nat × Nat) : Prop := s.p = box.1 ∧ s.i = box.2

/-- The loop goes on exactly where the walk of the boxes does. -/
theorem proceed_headRound (hAt : s.At (p, i)) :
    (proceed (headRound buf) s = none ∧ nextHeadBox buf (p, i) = none) ∨
      ∃ box, nextHeadBox buf (p, i) = some box ∧
        proceed (headRound buf) s = some (s.next (boxAt buf p)) ∧
        (s.next (boxAt buf p)).At box := by
  obtain ⟨rfl, rfl⟩ := hAt
  by_cases hIn : s.p + 8 ≤ buf.length ∧ s.i < 2
  · refine Or.inr ⟨_, if_pos hIn, proceed_eq_some.mpr (headRound_of_fits hIn.1 hIn.2), ?_⟩
    exact ⟨next_p _, next_i _⟩
  · refine Or.inl ⟨?_, if_neg hIn⟩
    by_cases hEnd : s.p < buf.length ∧ s.i < 2
    · exact proceed_of_result (headRound_of_outside hEnd.1 hEnd.2 fun hFits => hIn ⟨hFits, hEnd.2⟩)
    · exact proceed_of_result (headRound_of_end hEnd)

theorem headVisits_of_scan (hVisits : Visits (proceed (headRound buf)) s t) :
    Visits (nextHeadBox buf) (s.p, s.i) (t.p, t.i) := by
  obtain ⟨box, hBox, hAt⟩ := hVisits.simulate (R := HeadScan.At) (b := (s.p, s.i)) (by
    rintro x ⟨q, j⟩ x' hAt hNext
    rcases proceed_headRound hAt with ⟨hNone, -⟩ | ⟨box, hBox, hSome, hAt'⟩
    · rw [hNone] at hNext
      cases hNext
    · rw [hSome] at hNext
      cases hNext
      exact ⟨box, hBox, hAt'⟩) ⟨rfl, rfl⟩
  obtain ⟨hp, hi⟩ := hAt
  rw [hp, hi]
  exact hBox

theorem scan_of_headVisits {box : Nat × Nat} (hVisits : Visits (nextHeadBox buf) (s.p, s.i) box) :
    ∃ t, Visits (proceed (headRound buf)) s t ∧ t.At box := by
  refine hVisits.simulate (R := fun box s => HeadScan.At s box) (b := s) ?_ ⟨rfl, rfl⟩
  rintro ⟨q, j⟩ x box hAt hNext
  rcases proceed_headRound hAt with ⟨-, hNone⟩ | ⟨box', hBox, hSome, hAt'⟩
  · rw [hNone] at hNext
    cases hNext
  · rw [hBox] at hNext
    cases hNext
    exact ⟨_, hSome, hAt'⟩

/-- A box behind which no `moov` box comes. -/
def NoMoovFrom (buf : Bytes) (box : Nat × Nat) : Prop :=
  ∀ q j, Visits (nextHeadBox buf) box (q, j) → q < buf.length → j < 2 →
    (boxAt buf q).is "moov" = false

/-- What the scan keeps of the boxes it comes to: nothing new without a `moov` box, else the
last of them. -/
theorem moov_at_end (hVisits : Visits (proceed (headRound buf)) s e)
    (hEnd : headRound buf e = .inr (.ok e)) :
    (e.moovAtom = s.moovAtom ∧ e.headLength = s.headLength ∧ NoMoovFrom buf (s.p, s.i)) ∨
      ∃ p i, Visits (nextHeadBox buf) (s.p, s.i) (p, i) ∧ p + 8 ≤ buf.length ∧ i < 2 ∧
        (boxAt buf p).is "moov" = true ∧ NoMoovFrom buf ((boxAt buf p).stop, i + 1) ∧
        e.moovAtom = some (boxAt buf p) ∧ e.headLength = u32 ((boxAt buf p).stop + 8) := by
  induction hVisits using Relation.ReflTransGen.head_induction_on with
  | refl =>
      refine Or.inl ⟨rfl, rfl, fun q j hBox hLt hFew => ?_⟩
      have hStop : nextHeadBox buf (e.p, e.i) = none := by
        rcases proceed_headRound (s := e) ⟨rfl, rfl⟩ with ⟨-, hNone⟩ | ⟨_, _, hSome, _⟩
        · exact hNone
        · rw [proceed_of_result hEnd] at hSome
          cases hSome
      cases (visits_of_stop hStop).mp hBox
      by_cases hIn : e.p + 8 ≤ buf.length
      · rw [headRound_of_fits hIn hFew] at hEnd
        cases hEnd
      · rw [headRound_of_outside hLt hFew hIn] at hEnd
        cases hEnd
  | @head s t hStep _ ih =>
      rcases proceed_headRound (s := s) ⟨rfl, rfl⟩ with ⟨hNone, -⟩ | ⟨box, hBox, hSome, hAt⟩
      · rw [hNone] at hStep
        cases hStep
      rw [hSome] at hStep
      cases hStep
      have hIn : s.p + 8 ≤ buf.length ∧ s.i < 2 := by
        by_contra hOut
        rw [nextHeadBox, if_neg hOut] at hBox
        cases hBox
      obtain rfl : box = ((s.next (boxAt buf s.p)).p, (s.next (boxAt buf s.p)).i) :=
        Prod.ext hAt.1.symm hAt.2.symm
      rcases ih with ⟨hMoov, hLength, hNone⟩ | ⟨p, i, hFrom, hRest⟩
      · cases hIs : (boxAt buf s.p).is "moov" with
        | true =>
            have hFtyp : (boxAt buf s.p).is "ftyp" = false := by
              simp only [Atom.is, beq_iff_eq] at hIs
              simp [Atom.is, hIs, boxType]
            have hNext : s.next (boxAt buf s.p) =
                ⟨(boxAt buf s.p).stop, u32 (s.p + (boxAt buf s.p).size + 8), s.i + 1,
                  some (boxAt buf s.p)⟩ := by
              simp [HeadScan.next, hFtyp, hIs]
            rw [hNext] at hMoov hLength hNone
            exact Or.inr ⟨s.p, s.i, Visits.refl _, hIn.1, hIn.2, hIs, hNone, hMoov, hLength⟩
        | false =>
            have hSame : (s.next (boxAt buf s.p)).moovAtom = s.moovAtom ∧
                (s.next (boxAt buf s.p)).headLength = s.headLength := by
              unfold HeadScan.next
              cases (boxAt buf s.p).is "ftyp" <;> simp [hIs]
            refine Or.inl ⟨hMoov.trans hSame.1, hLength.trans hSame.2, fun q j hVisit => ?_⟩
            rcases (visits_of_step hBox).mp hVisit with hHere | hLater
            · cases hHere
              exact fun _ _ => hIs
            · exact hNone q j hLater
      · exact Or.inr ⟨p, i, hFrom.head hBox, hRest⟩

/-- The walk visits one last `moov` box. -/
theorem LastMoov.unique {q j : Nat} (hLast : LastMoov buf p)
    (hVisits : Visits (nextHeadBox buf) (0, 0) (q, j)) (hIn : q + 8 ≤ buf.length) (hFew : j < 2)
    (hMoov : (boxAt buf q).is "moov" = true)
    (hNone : NoMoovFrom buf ((boxAt buf q).stop, j + 1)) : q = p := by
  obtain ⟨hMoov', i, ⟨hVisits', hLt, hFew'⟩, hNone'⟩ := hLast
  have hHead : ∀ {x : Nat}, (boxAt buf x).is "moov" = true → (boxAt buf x).IsHead := fun h => Or.inr h
  have hUnique : Relator.RightUnique fun x y => nextHeadBox buf x = some y := by
    intro x y z hy hz
    exact Option.some.inj (hy.symm.trans hz)
  rcases Relation.ReflTransGen.total_of_right_unique hUnique hVisits hVisits' with hOrder | hOrder
  · have hNext : nextHeadBox buf (q, j) = some ((boxAt buf q).stop, j + 1) := by
      rw [nextHeadBox, if_pos ⟨hIn, hFew⟩, if_pos (hHead hMoov)]
    rcases (visits_of_step hNext).mp hOrder with hSame | hLater
    · exact (congrArg Prod.fst hSame).symm
    · rw [hNone p i hLater hLt hFew'] at hMoov'
      cases hMoov'
  · by_cases hIn' : p + 8 ≤ buf.length
    · have hNext : nextHeadBox buf (p, i) = some ((boxAt buf p).stop, i + 1) := by
        rw [nextHeadBox, if_pos ⟨hIn', hFew'⟩, if_pos (hHead hMoov')]
      rcases (visits_of_step hNext).mp hOrder with hSame | hLater
      · exact congrArg Prod.fst hSame
      · rw [hNone' q j hLater (by omega) hFew] at hMoov
        cases hMoov
    · have hStop : nextHeadBox buf (p, i) = none := if_neg fun h => hIn' h.1
      exact congrArg Prod.fst ((visits_of_stop hStop).mp hOrder)

/-- What is asked of the boxes the scan for the length comes to. -/
def LengthFits (buf : Bytes) : Prop :=
  ∀ p i, HeadBox buf p i →
    p + 8 ≤ buf.length ∧ ((boxAt buf p).size ≠ 0 ∨ (boxAt buf p).IsHead)

/-- The scan for the length leaves its loop where the boxes fit. -/
theorem LengthFits.exists_end (h : LengthFits buf) :
    ∃ e, Visits (proceed (headRound buf)) ⟨0, 0, 0, none⟩ e ∧ headRound buf e = .inr (.ok e) := by
  have hBoxes : ∀ {s : HeadScan}, Visits (proceed (headRound buf)) ⟨0, 0, 0, none⟩ s →
      s.p < buf.length → s.i < 2 → s.p + 8 ≤ buf.length ∧
        ((boxAt buf s.p).size ≠ 0 ∨ (boxAt buf s.p).IsHead) :=
    fun hVisits hLt hFew => h _ _ ⟨headVisits_of_scan hVisits, hLt, hFew⟩
  have hFalls : ∀ s t, Visits (proceed (headRound buf)) ⟨0, 0, 0, none⟩ s →
      proceed (headRound buf) s = some t →
      (buf.length - t.p) + (2 - t.i) < (buf.length - s.p) + (2 - s.i) := by
    intro s t hVisits hNext
    by_cases hGoes : s.p < buf.length ∧ s.i < 2
    · obtain ⟨hIn, hMoves⟩ := hBoxes hVisits hGoes.1 hGoes.2
      rw [proceed_eq_some, headRound_of_fits hIn hGoes.2] at hNext
      cases hNext
      rw [next_p, next_i]
      have hStop : (boxAt buf s.p).stop = s.p + (boxAt buf s.p).size := rfl
      split
      · omega
      · rename_i hHead
        have hSize := hMoves.resolve_right hHead
        omega
    · rw [proceed_of_result (headRound_of_end hGoes)] at hNext
      cases hNext
  obtain ⟨e, hVisits, hEnd⟩ :=
    exists_end_of_measure (μ := fun s : HeadScan => (buf.length - s.p) + (2 - s.i)) hFalls
  refine ⟨e, hVisits, ?_⟩
  by_cases hGoes : e.p < buf.length ∧ e.i < 2
  · obtain ⟨hIn, -⟩ := hBoxes hVisits hGoes.1 hGoes.2
    rw [proceed_eq_some.mpr (headRound_of_fits hIn hGoes.2)] at hEnd
    cases hEnd
  · exact headRound_of_end hGoes

/-- A scan that leaves its loop came to boxes that fit only. -/
theorem lengthFits_of_end {e : HeadScan}
    (hVisits : Visits (proceed (headRound buf)) ⟨0, 0, 0, none⟩ e)
    (hEnd : headRound buf e = .inr (.ok e)) : LengthFits buf := by
  rintro p i ⟨hBox, hLt, hFew⟩
  obtain ⟨s, hScan, rfl, rfl⟩ := scan_of_headVisits (s := ⟨0, 0, 0, none⟩) hBox
  have hStop := proceed_of_result hEnd
  have hIn : s.p + 8 ≤ buf.length := by
    by_contra hOut
    have hFault := headRound_of_outside hLt hFew hOut
    rw [hVisits.end_unique hStop hScan (proceed_of_result hFault), hFault] at hEnd
    cases hEnd
  refine ⟨hIn, ?_⟩
  by_contra hStays
  obtain ⟨hSize, hHead⟩ := not_or.mp hStays
  apply hScan.moves hVisits hStop
  rw [proceed_eq_some, headRound_of_fits hIn hFew]
  have hFtyp : (boxAt buf s.p).is "ftyp" = false := by
    by_contra hIs
    exact hHead (Or.inl (by simpa using hIs))
  have hMoov : (boxAt buf s.p).is "moov" = false := by
    by_contra hIs
    exact hHead (Or.inr (by simpa using hIs))
  have hSame : (boxAt buf s.p).stop = s.p := by
    have hStop : (boxAt buf s.p).stop = s.p + (boxAt buf s.p).size := rfl
    omega
  simp [HeadScan.next, hFtyp, hMoov, hSame]

/-- What is asked of the last `moov` box. -/
def MoovFits (buf : Bytes) : Prop :=
  ∀ p, LastMoov buf p →
    (boxAt buf p).stop + 8 < 2 ^ 32 ∨ u32 ((boxAt buf p).stop + 8) = 0

/-- A length that is right. -/
def LengthRight (buf : Bytes) (s : HeadScan) : Prop :=
  s.headLength = 0 ∨ ∃ moov, s.moovAtom = some moov ∧ moov.is "moov" = true ∧
    atomReadHeader buf moov.start = .ok moov ∧ s.headLength = moov.stop + 8

/-- The length is right where the one of the last `moov` box does not wrap. -/
theorem lengthRight_iff {e : HeadScan}
    (hVisits : Visits (proceed (headRound buf)) ⟨0, 0, 0, none⟩ e)
    (hEnd : headRound buf e = .inr (.ok e)) : LengthRight buf e ↔ MoovFits buf := by
  rcases moov_at_end hVisits hEnd with ⟨-, hLength, hNone⟩ |
    ⟨p, i, hBox, hIn, hFew, hIs, hNone, hMoov, hLength⟩
  · refine iff_of_true (Or.inl hLength) ?_
    rintro p ⟨hIs, i, ⟨hBox, hLt, hFew⟩, -⟩
    rw [hNone p i hBox hLt hFew] at hIs
    cases hIs
  · have hLast : LastMoov buf p := ⟨hIs, i, ⟨hBox, by omega, hFew⟩, hNone⟩
    constructor
    · intro hRight q hLast'
      obtain rfl := hLast'.unique hBox hIn hFew hIs hNone
      rcases hRight with hZero | ⟨moov, hSome, -, -, hSame⟩
      · exact Or.inr (hLength ▸ hZero)
      · rw [hMoov] at hSome
        cases hSome
        refine Or.inl ?_
        rw [← hSame, hLength]
        exact u32_lt _
    · intro hFits
      rcases hFits p hLast with hLt | hZero
      · refine Or.inr ⟨_, hMoov, hIs, atomReadHeader_of_fits hIn, ?_⟩
        rw [hLength, u32_of_lt hLt]
      · exact Or.inl (hLength.trans hZero)

theorem mp4HeadLength_settles_iff (head : AppBuffer) :
    Settles (mp4HeadLength head) (fun result => ∃ s, result = .ok s ∧ LengthRight head.data s) ↔
      LengthFits head.data ∧ MoovFits head.data := by
  unfold mp4HeadLength
  rw [settles_loop_iff]
  have hEnds : ∀ {e s : HeadScan}, headRound head.data e = .inr (.ok s) → e = s := by
    intro e s hRound
    unfold headRound at hRound
    split at hRound
    · split at hRound <;> cases hRound
    · cases hRound
      rfl
  constructor
  · rintro ⟨e, _, hVisits, hRound, s, rfl, hRight⟩
    obtain rfl := hEnds hRound
    exact ⟨lengthFits_of_end hVisits hRound, (lengthRight_iff hVisits hRound).mp hRight⟩
  · rintro ⟨hLength, hMoov⟩
    obtain ⟨e, hVisits, hRound⟩ := hLength.exists_end
    exact ⟨e, _, hVisits, hRound, e, rfl, (lengthRight_iff hVisits hRound).mpr hMoov⟩

end Length

section Parse

variable {head : AppBuffer} {s t e : ParseScan}

/-- The scan has added up the boxes before its position. -/
def ParseScan.At (s : ParseScan) (p : Nat) : Prop := s.p = p ∧ s.usedSize = u32 p

/-- A box of the kinds that are copied can be. -/
def Copied (buf : Bytes) (p : Nat) : Prop :=
  (boxAt buf p).stop ≤ buf.length ∧ (boxAt buf p).size ≤ 0x3FFFFFFF

/-- How a round of the loop goes on from a position. -/
inductive ParseCase (head : AppBuffer) (s : ParseScan) (p : Nat) : Prop where
  | leaves (hEnd : ¬ p < head.data.length) (hRound : parseRound head s = .inr (.ok (.leaves s)))
  | outside (hLt : p < head.data.length) (hOut : ¬ p + 8 ≤ head.data.length)
      (hRound : parseRound head s = .inr (.error .readOutside))
  | tooLong (hIn : p + 8 ≤ head.data.length) (hHead : (boxAt head.data p).IsHead)
      (hLong : ¬ (boxAt head.data p).stop ≤ head.data.length)
      (hRound : parseRound head s = .inr (.ok .returnsEmpty))
  | aborts (hIn : p + 8 ≤ head.data.length) (hHead : (boxAt head.data p).IsHead)
      (hFits : (boxAt head.data p).stop ≤ head.data.length)
      (hLarge : ¬ (boxAt head.data p).size ≤ 0x3FFFFFFF)
      (hRound : parseRound head s = .inr (.error .copyAborts))
  | goesOn (hIn : p + 8 ≤ head.data.length)
      (hCopied : (boxAt head.data p).IsHead → Copied head.data p) (t : ParseScan)
      (hRound : parseRound head s = .inl t) (hAt : t.At (boxAt head.data p).stop)

theorem parseCase (head : AppBuffer) (hAt : s.At p) : ParseCase head s p := by
  obtain ⟨rfl, hUsed⟩ := hAt
  by_cases hLt : s.p < head.data.length
  swap
  · refine .leaves hLt ?_
    unfold parseRound
    rw [if_neg hLt]
  by_cases hIn : s.p + 8 ≤ head.data.length
  swap
  · refine .outside hLt hIn ?_
    unfold parseRound
    rw [if_pos hLt, atomReadHeader_of_outside hIn]
  have hLength := head.length_lt
  have hStop : (boxAt head.data s.p).stop = s.p + (boxAt head.data s.p).size := rfl
  have hStart : (boxAt head.data s.p).start = s.p := rfl
  have hRoom : subU32 head.data.length s.usedSize = head.data.length - s.p := by
    rw [hUsed, u32_of_lt (by omega), subU32_of_le hLength hLt.le]
  have hSkip : ∀ ftypData moovData, ParseScan.At
      ⟨(boxAt head.data s.p).stop, u32 (s.usedSize + (boxAt head.data s.p).size), ftypData, moovData⟩
      (boxAt head.data s.p).stop := by
    intro ftypData moovData
    refine ⟨rfl, ?_⟩
    rw [hUsed, u32_add_left]
    rfl
  by_cases hHead : (boxAt head.data s.p).IsHead
  · by_cases hFits : (boxAt head.data s.p).stop ≤ head.data.length
    · have hRoom' : ¬ head.data.length - s.p < (boxAt head.data s.p).size := by omega
      by_cases hSmall : (boxAt head.data s.p).size ≤ 0x3FFFFFFF
      · obtain ⟨copied, hCopy⟩ : ∃ copied,
            Checked.copy head.data s.p (boxAt head.data s.p).size = .ok copied :=
          ⟨_, Checked.copy_eq (hStop ▸ hFits) hSmall⟩
        cases hFtyp : (boxAt head.data s.p).is "ftyp" with
        | true =>
            refine .goesOn hIn (fun _ => ⟨hFits, hSmall⟩) _ ?_ (hSkip (some copied) s.moovData)
            unfold parseRound
            rw [if_pos hLt, atomReadHeader_of_fits hIn]
            simp only [hFtyp, if_true, hRoom, if_neg hRoom', hStart, hCopy]
        | false =>
            have hMoov := hHead.resolve_left (by simp [hFtyp])
            refine .goesOn hIn (fun _ => ⟨hFits, hSmall⟩) _ ?_ (hSkip s.ftypData (some copied))
            unfold parseRound
            rw [if_pos hLt, atomReadHeader_of_fits hIn]
            simp only [hFtyp, hMoov, Bool.false_eq_true, if_true, if_false, hRoom, if_neg hRoom', hStart,
              hCopy]
      · have hCopy : Checked.copy head.data s.p (boxAt head.data s.p).size = .error .copyAborts :=
          Checked.copy_aborts hSmall
        refine .aborts hIn hHead hFits hSmall ?_
        unfold parseRound
        rw [if_pos hLt, atomReadHeader_of_fits hIn]
        cases hFtyp : (boxAt head.data s.p).is "ftyp" with
        | true => simp only [if_true, hRoom, if_neg hRoom', hStart, hCopy, hFtyp]
        | false =>
            have hMoov := hHead.resolve_left (by simp [hFtyp])
            simp only [hFtyp, hMoov, Bool.false_eq_true, if_true, if_false, hRoom, if_neg hRoom',
              hStart, hCopy]
    · have hRoom' : head.data.length - s.p < (boxAt head.data s.p).size := by omega
      refine .tooLong hIn hHead hFits ?_
      unfold parseRound
      rw [if_pos hLt, atomReadHeader_of_fits hIn]
      rcases hHead with hFtyp | hMoov
      · simp only [hFtyp, if_true, hRoom, if_pos hRoom']
      · simp only [hMoov, if_true, hRoom, if_pos hRoom', ite_self]
  · obtain ⟨hFtyp, hMoov⟩ := not_or.mp hHead
    refine .goesOn hIn (fun h => absurd h hHead) _ ?_ (hSkip s.ftypData s.moovData)
    unfold parseRound
    rw [if_pos hLt, atomReadHeader_of_fits hIn]
    simp only [if_neg hFtyp, if_neg hMoov]

/-- The loop goes on exactly where the walk of the boxes does. -/
theorem proceed_parseRound (head : AppBuffer) (hAt : s.At p) :
    (proceed (parseRound head) s = none ∧ nextBox head.data p = none) ∨
      ∃ t q, proceed (parseRound head) s = some t ∧ nextBox head.data p = some q ∧ t.At q := by
  cases parseCase head hAt with
  | leaves hEnd hRound =>
      exact Or.inl ⟨proceed_of_result hRound, if_neg fun h => by omega⟩
  | outside _ hOut hRound =>
      exact Or.inl ⟨proceed_of_result hRound, if_neg fun h => hOut h.1⟩
  | tooLong _ hHead hLong hRound =>
      exact Or.inl ⟨proceed_of_result hRound, if_neg fun h => hLong (h.2 hHead).1⟩
  | aborts _ hHead _ hLarge hRound =>
      exact Or.inl ⟨proceed_of_result hRound, if_neg fun h => hLarge (h.2 hHead).2⟩
  | goesOn hIn hCopied t hRound hAt' =>
      exact Or.inr ⟨t, _, proceed_eq_some.mpr hRound, if_pos ⟨hIn, hCopied⟩, hAt'⟩

theorem start_at : ParseScan.At ⟨0, 0, none, none⟩ 0 := by
  refine ⟨rfl, ?_⟩
  simp [u32]

theorem boxVisits_of_scan (hVisits : Visits (proceed (parseRound head)) ⟨0, 0, none, none⟩ s) :
    ∃ p, Visits (nextBox head.data) 0 p ∧ s.At p := by
  refine hVisits.simulate (R := ParseScan.At) (b := 0) ?_ start_at
  intro x q x' hAt hNext
  rcases proceed_parseRound head hAt with ⟨hNone, -⟩ | ⟨t, r, hSome, hBox, hAt'⟩
  · rw [hNone] at hNext
    cases hNext
  · rw [hSome] at hNext
    cases hNext
    exact ⟨r, hBox, hAt'⟩

theorem scan_of_boxVisits (hVisits : Visits (nextBox head.data) 0 p) :
    ∃ s, Visits (proceed (parseRound head)) ⟨0, 0, none, none⟩ s ∧ s.At p := by
  refine hVisits.simulate (R := fun p s => ParseScan.At s p) (b := ⟨0, 0, none, none⟩) ?_ start_at
  intro q x r hAt hNext
  rcases proceed_parseRound head hAt with ⟨-, hNone⟩ | ⟨t, r', hSome, hBox, hAt'⟩
  · rw [hNone] at hNext
    cases hNext
  · rw [hBox] at hNext
    cases hNext
    exact ⟨t, hSome, hAt'⟩

/-- What is asked of the boxes the first loop of `Mp4HeadParse` comes to. -/
def ParseFits (buf : Bytes) : Prop :=
  ∀ p, Visits (nextBox buf) 0 p → p < buf.length → p + 8 ≤ buf.length ∧
    (boxAt buf p).size ≠ 0 ∧
    ((boxAt buf p).IsHead → (boxAt buf p).stop ≤ buf.length → (boxAt buf p).size ≤ 0x3FFFFFFF)

theorem mp4HeadParse_settles_iff (head : AppBuffer) :
    Settles (mp4HeadParse head) (fun result => ∃ e, result = .ok e) ↔ ParseFits head.data := by
  unfold mp4HeadParse
  rw [settles_loop_iff]
  constructor
  · rintro ⟨e, _, hVisits, hRound, result, rfl⟩ p hBox hLt
    have hStop := proceed_of_result hRound
    obtain ⟨s, hScan, hAt⟩ := scan_of_boxVisits hBox
    have hNoFault : ∀ fault, parseRound head s ≠ .inr (.error fault) := by
      intro fault hFault
      rw [hVisits.end_unique hStop hScan (proceed_of_result hFault), hFault] at hRound
      cases hRound
    cases parseCase head hAt with
    | leaves hEnd _ => exact absurd hLt hEnd
    | outside _ _ hFault => exact absurd hFault (hNoFault _)
    | tooLong hIn _ hLong _ =>
        have hSize : (boxAt head.data p).stop = p + (boxAt head.data p).size := rfl
        exact ⟨hIn, by omega, fun _ hFits => absurd hFits hLong⟩
    | aborts _ _ _ _ hFault => exact absurd hFault (hNoFault _)
    | goesOn hIn hCopied t hNext hAt' =>
        refine ⟨hIn, fun hSize => ?_, fun hHead _ => (hCopied hHead).2⟩
        -- The walk of the boxes would stay where it is for ever.
        have hBoxEnd : ∃ q, Visits (nextBox head.data) 0 q ∧ nextBox head.data q = none := by
          obtain ⟨q, hVisit, hAtEnd⟩ := boxVisits_of_scan hVisits
          rcases proceed_parseRound head hAtEnd with ⟨-, hNone⟩ | ⟨_, _, hSome, _⟩
          · exact ⟨q, hVisit, hNone⟩
          · rw [hStop] at hSome
            cases hSome
        obtain ⟨q, hVisit, hNone⟩ := hBoxEnd
        apply hBox.moves hVisit hNone
        have hSame : (boxAt head.data p).stop = p := by
          show p + (boxAt head.data p).size = p
          omega
        rw [nextBox, if_pos ⟨hIn, hCopied⟩, hSame]
  · intro hFits
    have hFalls : ∀ p q, Visits (nextBox head.data) 0 p → nextBox head.data p = some q →
        head.data.length - q < head.data.length - p := by
      intro p q hBox hNext
      unfold nextBox at hNext
      split at hNext
      · rename_i hGoes
        cases hNext
        have hSize := (hFits p hBox (by omega)).2.1
        have hStop : (boxAt head.data p).stop = p + (boxAt head.data p).size := rfl
        omega
      · cases hNext
    obtain ⟨q, hBox, hEnd⟩ := exists_end_of_measure (μ := fun p => head.data.length - p) hFalls
    obtain ⟨e, hVisits, hAt⟩ := scan_of_boxVisits hBox
    have hResult : ∃ result, parseRound head e = .inr (.ok result) := by
      cases parseCase head hAt with
      | leaves _ hRound => exact ⟨_, hRound⟩
      | outside hLt hOut _ => exact absurd (hFits q hBox hLt).1 hOut
      | tooLong _ _ _ hRound => exact ⟨_, hRound⟩
      | aborts hIn hHead hInside hLarge _ =>
          exact absurd ((hFits q hBox (by omega)).2.2 hHead hInside) hLarge
      | goesOn hIn hCopied _ _ _ =>
          rw [nextBox, if_pos ⟨hIn, hCopied⟩] at hEnd
          cases hEnd
    obtain ⟨result, hRound⟩ := hResult
    exact ⟨e, _, hVisits, hRound, result, rfl⟩

end Parse

/-- The scans of a head are safe exactly if the boxes they come to fit. -/
theorem scansSafely_iff (head : AppBuffer) : ScansSafely head ↔ BoxesFit head := by
  have hLength := mp4HeadLength_settles_iff head
  have hParse := mp4HeadParse_settles_iff head
  constructor
  · rintro ⟨hOne, hOther⟩
    exact ⟨(hLength.mp hOne).1, (hLength.mp hOne).2, hParse.mp hOther⟩
  · rintro ⟨hBoxes, hMoov, hOther⟩
    exact ⟨hLength.mpr ⟨hBoxes, hMoov⟩, hParse.mpr hOther⟩

/-- A `free` box of size 0. -/
def emptyFree : AppBuffer := ⟨[0, 0, 0, 0, 0x66, 0x72, 0x65, 0x65], by decide⟩

/-- The loops never leave a box of size 0. -/
theorem scansSafely_fails : ¬ ∀ head, ScansSafely head := by
  intro hAll
  have hFits := (mp4HeadParse_settles_iff emptyFree).mp (hAll emptyFree).parse
  exact (hFits 0 (Visits.refl 0) (by decide)).2.1 (by decide)

end Mp4Spliter

end Storage
