import Mathlib.Data.Nat.ModEq
import Mathlib.Tactic.Linarith

/-! Numbers seen through their residue. A protocol counts without bound and sends
only the residue modulo `modulus`; these lemmas say when the residue determines the
number, and when comparing residues is comparing numbers. -/

namespace Circle

/-- Going up from `low` by less than one turn, the residue grows by as much or wraps once. -/
theorem mod_or_wrap (modulus : Nat) {low high : Nat} (le : low ≤ high) (near : high < low + modulus) :
    high % modulus = low % modulus + (high - low) ∧ low % modulus + (high - low) < modulus ∨
      high % modulus + modulus = low % modulus + (high - low) := by
  have positive : 0 < modulus := by omega
  have lowBound := Nat.mod_lt low positive
  have shift : high % modulus = (low % modulus + (high - low)) % modulus := by
    rw [Nat.mod_add_mod, Nat.add_sub_cancel' le]
  by_cases inside : low % modulus + (high - low) < modulus
  · left
    exact ⟨by rw [shift, Nat.mod_eq_of_lt inside], inside⟩
  · right
    rw [shift, Nat.mod_eq_sub_mod (Nat.le_of_not_lt inside), Nat.mod_eq_of_lt (by omega)]
    omega

def distance (modulus base residue : Nat) : Nat := (residue + modulus - base % modulus) % modulus

def numberFrom (modulus base residue : Nat) : Nat := base + distance modulus base residue

def numberUpTo (modulus top residue : Nat) : Nat := top - distance modulus residue (top % modulus)

theorem distance_of_le (modulus : Nat) {base number : Nat} (le : base ≤ number)
    (near : number < base + modulus) :
    distance modulus base (number % modulus) = number - base := by
  have positive : 0 < modulus := by omega
  have baseBound := Nat.mod_lt base positive
  rw [distance]
  rcases mod_or_wrap modulus le near with ⟨same, inside⟩ | wrapped
  · rw [show number % modulus + modulus - base % modulus = number - base + modulus by omega,
      Nat.add_mod_right, Nat.mod_eq_of_lt (by omega)]
  · rw [show number % modulus + modulus - base % modulus = number - base by omega,
      Nat.mod_eq_of_lt (by omega)]

theorem numberFrom_of_le {modulus base number : Nat} (le : base ≤ number)
    (near : number < base + modulus) : numberFrom modulus base (number % modulus) = number := by
  rw [numberFrom, distance_of_le modulus le near]
  omega

theorem numberFrom_mod {modulus base residue : Nat} (bound : residue < modulus) :
    numberFrom modulus base residue % modulus = residue := by
  have baseBound := Nat.mod_lt base (show 0 < modulus by omega)
  rw [numberFrom, distance, Nat.add_mod_mod, Nat.add_mod, ← Nat.add_mod,
    show base + (residue + modulus - base % modulus) = residue + modulus * (base / modulus + 1) by
      have parts := Nat.div_add_mod base modulus
      rw [Nat.mul_add]
      omega,
    Nat.add_mul_mod_self_left, Nat.mod_eq_of_lt bound]

theorem numberUpTo_of_le {modulus top number : Nat} (le : number ≤ top)
    (near : top < number + modulus) : numberUpTo modulus top (number % modulus) = number := by
  have positive : 0 < modulus := by omega
  have same : distance modulus (number % modulus) (top % modulus) = top - number := by
    rw [distance, Nat.mod_mod, ← distance]
    exact distance_of_le modulus le near
  rw [numberUpTo, same]
  omega

/-- Two numbers whose residues a threshold comparison orders correctly: at most `threshold`
apart, or one more with the wrap between them. -/
def Comparable (modulus threshold low high : Nat) : Prop :=
  high - low ≤ threshold ∨ high - low = threshold + 1 ∧ high % modulus < low % modulus

def before (threshold : Nat) (left right : Int) : Bool :=
  if left - right > threshold then true
  else if right - left > threshold then false
  else left < right

theorem before_of_lt {modulus threshold low high : Nat} (wide : 2 * threshold + 2 < modulus)
    (lt : low < high) (comparable : Comparable modulus threshold low high) :
    before threshold (low % modulus : Nat) (high % modulus : Nat) = true ∧
      before threshold (high % modulus : Nat) (low % modulus : Nat) = false := by
  have near : high - low ≤ threshold + 1 := by
    rcases comparable with close | ⟨far, _⟩ <;> omega
  simp only [before]
  rcases mod_or_wrap modulus (Nat.le_of_lt lt) (by omega) with ⟨same, inside⟩ | wrapped
  · have close : high - low ≤ threshold := by
      rcases comparable with close | ⟨_, lower⟩ <;> omega
    rw [if_neg (by omega), if_neg (by omega), if_neg (by omega), if_neg (by omega)]
    simp only [decide_eq_true_eq, decide_eq_false_iff_not]
    omega
  · have lowBound := Nat.mod_lt low (show 0 < modulus by omega)
    rw [if_pos (by omega), if_neg (by omega), if_pos (by omega)]
    simp

theorem before_self (threshold : Nat) (residue : Int) : before threshold residue residue = false := by
  simp [before]

end Circle
