import Mathlib.Data.Char
import Peer.P2P.IpPool

/-! The indexes of the pool agree with its candidates. A peer is taken out of the indexes
under its old keys and put back under its new ones, so its address must not change in
between, nor between two calls. -/
namespace P2P

open Basis OrderedMap

/-- Different addresses have different texts. -/
theorem addressText_injective (seed : Nat) : Function.Injective (addressText seed) := by
  intro a b hText
  have hColon : ∀ n, ':' ∉ Nat.toDigits 10 n := by
    intro n hMem
    have hDigit := Nat.isDigit_of_mem_toDigits (by decide) (by decide) hMem
    revert hDigit
    decide
  have hLeft : ∀ n (rest : List Char),
      (Nat.toDigits 10 n ++ ':' :: rest).takeWhile (· ≠ ':') = Nat.toDigits 10 n := by
    intro n rest
    rw [List.takeWhile_append_of_pos]
    · simp
    · intro c hMem
      simpa using fun hEq : c = ':' => hColon n (hEq ▸ hMem)
  have hDigits : ∀ m n, Nat.toDigits 10 m = Nat.toDigits 10 n → m = n := by
    intro m n hEq
    rw [← Nat.ofDigitChars_ten_toDigits (n := m), hEq, Nat.ofDigitChars_ten_toDigits]
  have hIp : Nat.toDigits 10 (a.ip.toNat + seed) = Nat.toDigits 10 (b.ip.toNat + seed) := by
    have hCut := congrArg (List.takeWhile (· ≠ ':')) hText
    rwa [addressText, addressText, hLeft, hLeft] at hCut
  have hPort : Nat.toDigits 10 a.port.toNat = Nat.toDigits 10 b.port.toNat := by
    unfold addressText at hText
    rw [hIp] at hText
    exact (List.cons.inj (List.append_cancel_left hText)).2
  obtain ⟨ip, port⟩ := a
  obtain ⟨ip', port'⟩ := b
  have hIpEq := hDigits _ _ hIp
  have hPortEq := hDigits _ _ hPort
  simp only [SocketAddr.mk.injEq, ← UInt32.toNat_inj, ← UInt16.toNat_inj]
  exact ⟨by simpa using hIpEq, hPortEq⟩

/-- MD5 does not collide on the texts of addresses. -/
def NoCollision (outside : Outside) : Prop :=
  ∀ a b : SocketAddr, outside.md5 (addressText outside.seed a) =
    outside.md5 (addressText outside.seed b) →
      addressText outside.seed a = addressText outside.seed b

/-- The address of a peer does not depend on the priorities it announces. -/
def IgnoresPriorities (outside : Outside) : Prop :=
  ∀ localIp info uploadPriority trackerPriority,
    outside.keySocketAddr localIp { info with
      uploadPriority := uploadPriority, trackerPriority := trackerPriority } =
    outside.keySocketAddr localIp info

theorem eq_of_equivalent_address (a b : SocketAddr) (h : equivalent a b = true) : a = b :=
  SocketAddr.equivalent_iff.mp h

section Indicators

theorem uint32_total {x y : UInt32} (h : x ≠ y) : x < y ∨ y < x := by
  rw [UInt32.lt_iff_toNat_lt, UInt32.lt_iff_toNat_lt]
  rw [ne_eq, ← UInt32.toNat_inj] at h
  omega

theorem compareIndicator_apart {x y : UInt32} {a b : SocketAddr} (hKey : a ≠ b) :
    (!compareIndicator x a y b && !compareIndicator y b x a) = false := by
  unfold compareIndicator
  by_cases hTime : x = y
  · subst hTime
    simp only [beq_self_eq_true, if_true]
    by_contra hSame
    exact hKey (SocketAddr.equivalent_iff.mp (by simpa [equivalent] using hSame))
  · simp only [beq_eq_false_iff_ne.mpr hTime, beq_eq_false_iff_ne.mpr (Ne.symm hTime)]
    simp only [Bool.false_eq_true, if_false, Bool.and_eq_false_iff, Bool.not_eq_false',
      decide_eq_true_eq]
    exact uint32_total hTime

/-- One link of a chain of comparisons: it decides unless its two values are equal. -/
theorem chain_link {A : Type} [DecidableEq A] {x y : A} {p q rest rest' : Bool}
    (hTotal : x ≠ y → p = true ∨ q = true) (hLeft : (if x ≠ y then p else rest) = false)
    (hRight : (if y ≠ x then q else rest') = false) : rest = false ∧ rest' = false := by
  by_cases hEq : x = y
  · rw [if_neg (by simpa using hEq)] at hLeft
    rw [if_neg (by simpa using hEq.symm)] at hRight
    exact ⟨hLeft, hRight⟩
  · rw [if_pos hEq] at hLeft
    rw [if_pos (Ne.symm hEq)] at hRight
    obtain hp | hq := hTotal hEq
    · rw [hp] at hLeft
      cases hLeft
    · rw [hq] at hRight
      cases hRight

/-- Connect indicators that are equivalent have the same transformed address. -/
theorem ConnectIndicator.key_eq {x y : ConnectIndicator} (h : equivalent x y = true) :
    x.key = y.key := by
  have hBool : ∀ {a b : Bool}, a ≠ b → a = true ∨ b = true := by decide
  simp only [equivalent, Before.before, Bool.and_eq_true, Bool.not_eq_true'] at h
  obtain ⟨hLeft, hRight⟩ := h
  obtain ⟨hLeft, hRight⟩ := chain_link hBool hLeft hRight
  obtain ⟨hLeft, hRight⟩ := chain_link hBool hLeft hRight
  obtain ⟨hLeft, hRight⟩ := chain_link
    (fun hNe => by simpa using uint32_total hNe) hLeft hRight
  obtain ⟨hLeft, hRight⟩ := chain_link hBool hLeft hRight
  obtain ⟨hLeft, hRight⟩ := chain_link
    (fun hNe => by simpa using uint32_total hNe) hLeft hRight
  obtain ⟨hLeft, hRight⟩ := chain_link
    (fun hNe => by simpa using (uint32_total hNe).symm) hLeft hRight
  obtain ⟨hLeft, hRight⟩ := chain_link
    (fun hNe => by simpa using (Nat.lt_or_gt_of_ne hNe).symm) hLeft hRight
  simp only [decide_eq_false_iff_not] at hLeft hRight
  exact le_antisymm (not_lt.mp hLeft) (not_lt.mp hRight)

end Indicators

end P2P
