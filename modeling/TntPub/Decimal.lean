import Mathlib.Data.List.Chain
import Mathlib.Tactic.Cases

namespace Decimal

def isDigit (b : UInt8) : Bool := 0x30 ≤ b && b ≤ 0x39

/-- The decimal representation of a number, as a stream prints it. -/
def encode (n : Nat) : List UInt8 := (Nat.toDigits 10 n).map fun c => UInt8.ofNat c.toNat

def value (ds : List UInt8) : Nat := ds.foldl (fun v b => 10 * v + (b.toNat - 48)) 0

theorem isDigit_iff {b : UInt8} : isDigit b = true ↔ 48 ≤ b.toNat ∧ b.toNat ≤ 57 := by
  simp [isDigit, UInt8.le_iff_toNat_le]

theorem encode_of_lt {n : Nat} (h : n < 10) : encode n = [UInt8.ofNat (48 + n)] := by
  have hchar : n.digitChar.toNat = 48 + n := Nat.toNat_digitChar_of_lt_ten h
  rw [encode, Nat.toDigits_of_lt_base h, List.map_singleton, hchar]

theorem encode_of_le {n : Nat} (h : 10 ≤ n) : encode n = encode (n / 10) ++ encode (n % 10) := by
  have hlast := Nat.toDigits_of_lt_base (Nat.mod_lt n (show 0 < 10 by omega))
  rw [encode, Nat.toDigits_of_base_le (by omega) h, ← hlast, List.map_append]
  rfl

theorem encode_ne_nil (n : Nat) : encode n ≠ [] := by
  intro h
  exact Nat.toDigits_ne_nil (List.map_eq_nil_iff.mp h)

theorem isDigit_ofNat {n : Nat} (h : n < 10) : isDigit (UInt8.ofNat (48 + n)) = true := by
  have hval : (UInt8.ofNat (48 + n)).toNat = 48 + n := UInt8.toNat_ofNat_of_lt' (by
    show 48 + n < 256
    omega)
  rw [isDigit_iff, hval]
  omega

theorem isDigit_of_mem_encode {n : Nat} {b : UInt8} (h : b ∈ encode n) : isDigit b = true := by
  induction n using Nat.strong_induction_on with
  | _ n ih =>
    by_cases hn : n < 10
    · rw [encode_of_lt hn] at h
      rw [List.mem_singleton.mp h]
      exact isDigit_ofNat hn
    · rw [encode_of_le (by omega)] at h
      rcases List.mem_append.mp h with h | h
      · exact ih (n / 10) (by omega) h
      · exact ih (n % 10) (by omega) h

theorem value_append_singleton (ds : List UInt8) (b : UInt8) :
    value (ds ++ [b]) = 10 * value ds + (b.toNat - 48) := by
  simp [value, List.foldl_append]

theorem value_encode (n : Nat) : value (encode n) = n := by
  induction n using Nat.strong_induction_on with
  | _ n ih =>
    have hdigit : ∀ k, k < 10 → (UInt8.ofNat (48 + k)).toNat - 48 = k := by decide
    by_cases hn : n < 10
    · have hd := hdigit n hn
      rw [encode_of_lt hn]
      show 10 * 0 + _ = n
      omega
    · have hd := hdigit (n % 10) (by omega)
      rw [encode_of_le (by omega), encode_of_lt (n := n % 10) (by omega),
        value_append_singleton, ih (n / 10) (by omega), hd]
      omega

theorem encode_injective : Function.Injective encode := fun a b h => by
  rw [← value_encode a, h, value_encode b]

theorem encode_digit {b : UInt8} (h : isDigit b = true) : encode (b.toNat - 48) = [b] := by
  rw [isDigit_iff] at h
  rw [encode_of_lt (by omega), show 48 + (b.toNat - 48) = b.toNat by omega, UInt8.ofNat_toNat]

theorem exists_first (n : Nat) : ∃ y t, encode n = y :: t ∧ isDigit y = true := by
  cases hn : encode n with
  | nil => exact absurd hn (encode_ne_nil n)
  | cons y t => exact ⟨y, t, rfl, isDigit_of_mem_encode (n := n) (by simp [hn])⟩

theorem exists_last (n : Nat) : ∃ p x, encode n = p ++ [x] ∧ isDigit x = true := by
  obtain hn | ⟨p, x, hn⟩ := List.eq_nil_or_concat (encode n)
  · exact absurd hn (encode_ne_nil n)
  · rw [List.concat_eq_append] at hn
    exact ⟨p, x, hn, isDigit_of_mem_encode (n := n) (by simp [hn])⟩

theorem eq_of_encode_singleton {n : Nat} {b : UInt8} (h : encode n = [b]) : n = b.toNat - 48 := by
  have hvalue := value_encode n
  rw [h] at hvalue
  have hone : value [b] = 10 * 0 + (b.toNat - 48) := rfl
  omega

theorem encode_lt_of_singleton {n : Nat} {b : UInt8} (h : encode n = [b]) : n < 10 := by
  have hdigit : isDigit b = true := isDigit_of_mem_encode (n := n) (by rw [h]; simp)
  rw [isDigit_iff] at hdigit
  have hn := eq_of_encode_singleton h
  omega

/-- No two digits stand next to each other. -/
def Isolated (bs : List UInt8) : Prop :=
  bs.IsChain fun b c => ¬ (isDigit b = true ∧ isDigit c = true)

instance (bs : List UInt8) : Decidable (Isolated bs) :=
  inferInstanceAs (Decidable (bs.IsChain _))

theorem isolated_iff {bs : List UInt8} :
    Isolated bs ↔ ∀ z x y r, bs = z ++ x :: y :: r → isDigit x = true → isDigit y = false := by
  rw [Isolated, List.isChain_iff_forall_rel_of_append_cons_cons]
  constructor
  · intro h z x y r hbs hx
    have hnot := h hbs
    simpa [hx] using hnot
  · intro h x y z r hbs hdigits
    rw [h z x y r hbs hdigits.1] at hdigits
    exact Bool.false_ne_true hdigits.2

theorem Isolated.cons_digit {b c : UInt8} {bs : List UInt8} (h : Isolated (b :: bs))
    (hb : isDigit b = true) : Isolated (c :: bs) :=
  List.IsChain.imp_head (fun hz hc => hz ⟨hb, hc.2⟩) h

theorem Isolated.append_digit {b c : UInt8} {bs : List UInt8} (h : Isolated (bs ++ [b]))
    (hb : isDigit b = true) : Isolated (bs ++ [c]) := by
  obtain ⟨hbs, -, hlast⟩ := List.isChain_append.mp h
  refine List.isChain_append.mpr ⟨hbs, List.isChain_singleton c, fun x hx y hy hdigits => ?_⟩
  exact hlast x hx b (by simp) ⟨hdigits.1, hb⟩

/-- A text that goes on without digits after one begins with none. -/
theorem Isolated.nil_of_digits {b : UInt8} {ds bs : List UInt8} (h : Isolated (b :: (ds ++ bs)))
    (hb : isDigit b = true) (hds : ∀ d ∈ ds, isDigit d = true) : ds = [] := by
  cases ds with
  | nil => rfl
  | cons d ds =>
    have hnot := isolated_iff.mp h [] b d (ds ++ bs) rfl hb
    rw [hds d (by simp)] at hnot
    cases hnot

theorem Isolated.nil_of_digits_before {b : UInt8} {ds bs : List UInt8}
    (h : Isolated (bs ++ ds ++ [b])) (hb : isDigit b = true)
    (hds : ∀ d ∈ ds, isDigit d = true) : ds = [] := by
  obtain hnil | ⟨p, d, hd⟩ := List.eq_nil_or_concat ds
  · exact hnil
  · rw [List.concat_eq_append] at hd
    have hnot := isolated_iff.mp h (bs ++ p) d b [] (by simp [hd]) (hds d (by simp [hd]))
    rw [hb] at hnot
    cases hnot

theorem nil_of_no_digit {ds : List UInt8} (hds : ∀ d ∈ ds, isDigit d = true)
    (hnone : ∀ d ∈ ds, isDigit d = false) : ds = [] := by
  apply List.eq_nil_iff_forall_not_mem.mpr
  intro d hd
  have hfalse := hnone d hd
  rw [hds d hd] at hfalse
  cases hfalse

/-- The only digit of a text is found where it was written. -/
theorem digit_unique {front tail z rest : List UInt8} {s x : UInt8}
    (hfront : ∀ b ∈ front, isDigit b = false) (htail : ∀ b ∈ tail, isDigit b = false)
    (hx : isDigit x = true) (h : front ++ s :: tail = z ++ x :: rest) :
    z = front ∧ x = s ∧ rest = tail := by
  have hnotFront : x ∉ front := fun hmem => by
    rw [hfront x hmem] at hx
    cases hx
  have hnotTail : x ∉ tail := fun hmem => by
    rw [htail x hmem] at hx
    cases hx
  obtain ⟨hz, hs, hrest⟩ := (List.append_cons_inj_of_notMem hnotFront hnotTail).mp h
  exact ⟨hz.symm, hs.symm, hrest.symm⟩

/-- In front of a text without neighbouring digits, two digits are found where they were
written, or some were written before them. -/
theorem cut_unique {front tail z rest : List UInt8} {j u x y : UInt8}
    (htail : Isolated (u :: tail)) (hx : isDigit x = true) (hy : isDigit y = true)
    (h : front ++ j :: u :: tail = z ++ x :: y :: rest) :
    (z = front ∧ x = j ∧ y = u ∧ rest = tail) ∨ ∃ r, front ++ [j] = z ++ x :: y :: r := by
  rcases List.append_eq_append_iff.mp h with ⟨as, hz, hcut⟩ | ⟨bs, hfront, hcut⟩
  · cases as with
    | nil =>
      left
      simp only [List.nil_append, List.cons.injEq] at hcut
      refine ⟨?_, hcut.1.symm, hcut.2.1.symm, hcut.2.2.symm⟩
      rw [hz, List.append_nil]
    | cons a as =>
      simp only [List.cons_append, List.cons.injEq] at hcut
      have hfalse := isolated_iff.mp htail as x y rest hcut.2 hx
      rw [hy] at hfalse
      cases hfalse
  · cases bs with
    | nil =>
      left
      simp only [List.nil_append, List.cons.injEq] at hcut
      refine ⟨?_, hcut.1, hcut.2.1, hcut.2.2⟩
      rw [hfront, List.append_nil]
    | cons b bs =>
      right
      cases bs with
      | nil =>
        simp only [List.cons_append, List.nil_append, List.cons.injEq] at hcut
        refine ⟨[], ?_⟩
        rw [hfront, hcut.1, hcut.2.1, List.append_assoc]
        rfl
      | cons c bs =>
        simp only [List.cons_append, List.cons.injEq] at hcut
        refine ⟨bs ++ [j], ?_⟩
        rw [hfront, hcut.1, hcut.2.1, List.append_assoc]
        rfl

end Decimal
