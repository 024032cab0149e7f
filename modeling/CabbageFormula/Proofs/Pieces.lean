import CabbageFormula.Token
import CabbageFormula.Word
import Mathlib.Algebra.Order.Ring.Int
import Mathlib.Data.List.SplitBy
import Mathlib.Tactic.Lemma

/-!
# The pieces of a text

What the cut of a text into pieces gives, and what a piece tells about the characters it is of.

* `Literal` — one or more digits, with the value they write and the word that stands for it.
* `IsPiece` — the two forms of a piece: a literal, or one character that is no digit.
* `pieces_append`, `pieces_digits_append`, `pieces_cons` — where a text may be cut.
* `IsPiece.eq_of_sign`, `IsPiece.eq_of_cabbage`, `IsPiece.eq_of_number` — a token has one spelling,
  up to the digits of a number.
-/

namespace CabbageFormula

/-! ## Literals -/

/-- A run of digits writes a number below the power of ten that its length tells. -/
lemma Numeral.ofDigitChars_lt {ds : List Char} (h : ∀ c ∈ ds, c.isDigit = true) (init : Nat) :
    Nat.ofDigitChars 10 ds init < (init + 1) * 10 ^ ds.length := by
  induction ds generalizing init with
  | nil => simp
  | cons c ds ih =>
      have hc := Char.isDigit_iff_toNat.mp (h c (by simp))
      have hnext := ih (fun a ha => h a (by simp [ha])) (10 * init + (c.toNat - '0'.toNat))
      have hdigit : 10 * init + (c.toNat - '0'.toNat) + 1 ≤ (init + 1) * 10 := by
        have hzero : '0'.toNat = 48 := rfl
        have hnine : '9'.toNat = 57 := rfl
        omega
      calc
        Nat.ofDigitChars 10 (c :: ds) init
          = Nat.ofDigitChars 10 ds (10 * init + (c.toNat - '0'.toNat)) := Nat.ofDigitChars_cons
        _ < (10 * init + (c.toNat - '0'.toNat) + 1) * 10 ^ ds.length := hnext
        _ ≤ (init + 1) * 10 * 10 ^ ds.length := Nat.mul_le_mul_right _ hdigit
        _ = (init + 1) * 10 ^ (c :: ds).length := by
          rw [List.length_cons, Nat.pow_succ', Nat.mul_assoc]

/-- **A literal**: one or more digits. -/
@[ext]
structure Literal where
  digits : List Char
  ne_nil : digits ≠ []
  isDigit : ∀ c ∈ digits, c.isDigit = true
deriving DecidableEq

namespace Literal

/-- The decimal value of a literal, however wide. -/
def value (l : Literal) : Nat := Numeral.value l.digits

/-- The shortest literal for a number. -/
def ofNat (n : Nat) : Literal :=
  ⟨Numeral.digits n, Numeral.digits_ne_nil n, fun _ h => Numeral.isDigit_of_mem_digits h⟩

lemma value_ofNat (n : Nat) : (ofNat n).value = n := Numeral.value_digits n

/-- **No literal is longer than it needs to be for a smaller number.** -/
lemma length_digits_ofNat_le {l : Literal} {n : Nat} (h : n ≤ l.value) :
    (ofNat n).digits.length ≤ l.digits.length := by
  have hpos : 0 < l.digits.length := List.length_pos_of_ne_nil l.ne_nil
  have hlt : l.value < 10 ^ l.digits.length := by
    have h := Numeral.ofDigitChars_lt l.isDigit 0
    rw [Nat.zero_add, Nat.one_mul] at h
    exact h
  exact (Nat.length_toDigits_le_iff (by decide) hpos).mpr (Nat.lt_of_le_of_lt h hlt)

/-- A literal fits if its value is a word. -/
def Fits (l : Literal) : Prop := l.value < 2 ^ 64

instance (l : Literal) : Decidable l.Fits := inferInstanceAs (Decidable (_ < _))

/-- **The word that stands for a literal**: its value, or the greatest word if it does not fit. -/
def capped (l : Literal) : UInt64 := UInt64.ofNat (min l.value (2 ^ 64 - 1))

@[simp] lemma toNat_capped (l : Literal) : l.capped.toNat = min l.value (2 ^ 64 - 1) := by
  have hlt : min l.value (2 ^ 64 - 1) < 2 ^ 64 := by omega
  exact UInt64.toNat_ofNat_of_lt' hlt

lemma toNat_capped_of_fits {l : Literal} (h : l.Fits) : l.capped.toNat = l.value := by
  have hlt : l.value < 2 ^ 64 := h
  rw [toNat_capped]
  omega

lemma capped_of_not_fits {l : Literal} (h : ¬ l.Fits) : l.capped = Word.top := by
  have hle : 2 ^ 64 ≤ l.value := Nat.le_of_not_lt h
  apply UInt64.toNat_inj.mp
  rw [toNat_capped, Word.toNat_top]
  omega

/-- A literal is read as a word exactly if it fits, and then as the one that stands for it. -/
lemma word?_eq_some_iff {l : Literal} {n : UInt64} :
    Numeral.word? l.digits = some n ↔ l.Fits ∧ n = l.capped := by
  rw [Numeral.word?_eq_some_iff, ← UInt64.toNat_inj]
  constructor
  · intro h
    have hfits : l.Fits := by
      have hlt := n.toNat_lt
      show l.value < 2 ^ 64
      rw [value, h]
      exact hlt
    exact ⟨hfits, by rw [toNat_capped_of_fits hfits, value, h]⟩
  · rintro ⟨hfits, h⟩
    rw [h, toNat_capped_of_fits hfits, value]

/-- Whatever its width, the greatest word taken for one that is too wide gives the word that
stands for a literal. -/
lemma getD_word? (l : Literal) : (Numeral.word? l.digits).getD Word.top = l.capped := by
  cases h : Numeral.word? l.digits with
  | some n => exact (word?_eq_some_iff.mp h).2
  | none =>
      have hwide : ¬ l.Fits := Nat.not_lt.mpr (Numeral.word?_eq_none_iff.mp h)
      exact (capped_of_not_fits hwide).symm

/-- Every two neighbours in a literal are digits. -/
lemma isChain_digits (l : Literal) :
    l.digits.IsChain fun a b => (a.isDigit && b.isDigit) = true := by
  refine List.Pairwise.isChain (List.pairwise_of_forall_mem_list ?_)
  intro a ha b hb
  simp [l.isDigit a ha, l.isDigit b hb]

lemma ofPiece_digits (l : Literal) :
    Token.ofPiece l.digits = .number (Numeral.word? l.digits) := by
  cases hd : l.digits with
  | nil => exact absurd hd l.ne_nil
  | cons c cs =>
      have hc : c.isDigit = true := l.isDigit c (by simp [hd])
      exact Token.ofPiece_of_isDigit hc cs

end Literal

/-! ## The form of a piece -/

/-- **A piece** is a literal, or one character that is no digit. -/
inductive IsPiece : List Char → Prop where
  | literal (l : Literal) : IsPiece l.digits
  | single {c : Char} (h : c.isDigit = false) : IsPiece [c]

/-- Where every two neighbours are digits, and there are two at all, there are only digits. -/
lemma isDigit_of_isChain :
    ∀ {a b : Char} {cs : List Char},
      (a :: b :: cs).IsChain (fun x y => (x.isDigit && y.isDigit) = true) →
        ∀ c ∈ a :: b :: cs, c.isDigit = true := by
  intro a b cs h
  induction cs generalizing a b with
  | nil =>
      intro c hc
      have hab := (List.isChain_cons_cons.mp h).1
      simp only [Bool.and_eq_true] at hab
      rcases List.mem_pair.mp hc with rfl | rfl
      · exact hab.1
      · exact hab.2
  | cons d cs ih =>
      intro c hc
      obtain ⟨hab, htail⟩ := List.isChain_cons_cons.mp h
      simp only [Bool.and_eq_true] at hab
      rcases List.mem_cons.mp hc with rfl | hc
      · exact hab.1
      · exact ih htail c hc

/-- **Every piece of a text has the form of one.** -/
theorem isPiece_of_mem_pieces {cs p : List Char} (h : p ∈ pieces cs) : IsPiece p := by
  have hne : p ≠ [] := List.ne_nil_of_mem_splitBy h
  have hchain := List.isChain_of_mem_splitBy h
  match p, hne, hchain with
  | [c], _, _ =>
      cases hc : c.isDigit with
      | false => exact IsPiece.single hc
      | true =>
          have hall : ∀ d ∈ [c], d.isDigit = true := by
            intro d hd
            rw [List.mem_singleton.mp hd]
            exact hc
          exact IsPiece.literal ⟨[c], by simp, hall⟩
  | a :: b :: rest, hne, hchain =>
      exact IsPiece.literal ⟨a :: b :: rest, hne, isDigit_of_isChain hchain⟩

namespace IsPiece

variable {p : List Char}

lemma isChain (h : IsPiece p) : p.IsChain fun a b => (a.isDigit && b.isDigit) = true := by
  cases h with
  | literal l => exact l.isChain_digits
  | @single c _ => exact List.isChain_singleton c

lemma eq_of_sign (h : IsPiece p) {s : Sign} (ht : Token.ofPiece p = .sign s) : p = [s.char] := by
  cases h with
  | literal l => rw [l.ofPiece_digits] at ht; cases ht
  | @single c hc =>
      rw [Token.ofPiece, if_neg (by simp [hc])] at ht
      split at ht
      · cases ht
      · cases hs : Sign.ofChar? c with
        | none => rw [hs] at ht; cases ht
        | some s' =>
            rw [hs] at ht
            cases ht
            rw [Sign.ofChar?_eq_some_iff.mp hs]

lemma eq_of_cabbage (h : IsPiece p) (ht : Token.ofPiece p = .cabbage) : p = ['c'] := by
  cases h with
  | literal l => rw [l.ofPiece_digits] at ht; cases ht
  | @single c hc =>
      rw [Token.ofPiece, if_neg (by simp [hc])] at ht
      split at ht
      case isTrue hmark => rw [hmark]
      case isFalse =>
        cases hs : Sign.ofChar? c with
        | none => rw [hs] at ht; cases ht
        | some s' => rw [hs] at ht; cases ht

lemma eq_of_number (h : IsPiece p) {n : Option UInt64} (ht : Token.ofPiece p = .number n) :
    ∃ l : Literal, p = l.digits ∧ Numeral.word? l.digits = n := by
  cases h with
  | literal l =>
      rw [l.ofPiece_digits] at ht
      exact ⟨l, rfl, Token.number.inj ht⟩
  | @single c hc =>
      rw [Token.ofPiece, if_neg (by simp [hc])] at ht
      split at ht
      · cases ht
      · cases hs : Sign.ofChar? c with
        | none => rw [hs] at ht; cases ht
        | some s' => rw [hs] at ht; cases ht

end IsPiece

/-! ## Where a text may be cut -/

@[simp] lemma flatten_pieces (cs : List Char) : (pieces cs).flatten = cs :=
  List.flatten_splitBy _ cs

/-- **Two texts are cut apart** unless a digit meets a digit. -/
theorem pieces_append {front back : List Char}
    (h : ∀ x ∈ front.getLast?, ∀ y ∈ back.head?, (x.isDigit && y.isDigit) = false) :
    pieces (front ++ back) = pieces front ++ pieces back :=
  List.splitBy_append h

lemma pieces_cons {c : Char} (h : c.isDigit = false) (cs : List Char) :
    pieces (c :: cs) = [c] :: pieces cs := by
  have hcut : pieces ([c] ++ cs) = pieces [c] ++ pieces cs := by
    apply pieces_append
    intro x hx y _
    simp only [List.getLast?_singleton, Option.mem_some_iff] at hx
    rw [← hx, h, Bool.false_and]
  exact hcut

/-- **A text is cut before and behind a character that is no digit.** -/
lemma pieces_append_cons {c : Char} (h : c.isDigit = false) (front back : List Char) :
    pieces (front ++ c :: back) = pieces front ++ [c] :: pieces back := by
  rw [pieces_append, pieces_cons h]
  intro x _ y hy
  obtain rfl := Option.some.inj hy
  rw [h, Bool.and_false]

/-- A literal is one piece if no digit follows it. -/
lemma pieces_digits_append (l : Literal) {cs : List Char}
    (h : ∀ y ∈ cs.head?, y.isDigit = false) : pieces (l.digits ++ cs) = l.digits :: pieces cs := by
  have hone : pieces l.digits = [l.digits] := List.splitBy_of_isChain l.ne_nil l.isChain_digits
  rw [pieces_append, hone, List.singleton_append]
  intro x _ y hy
  rw [h y hy, Bool.and_false]

end CabbageFormula
