import CabbageFormula.Proofs.Pieces
import CabbageFormula.Reading

/-!
# Wordings

The grammar of a sum of terms, as a type: a wording says for every term which literals it is
written with, so that a text together with its reading is one value.

* `Operand`, `Summand`, `Wording` — what stands behind a sign, with the sign, and a whole sum.
* `Wording.chars`, `Wording.terms` — the text of a wording, and the terms that it means.
* `Wording.pieces_chars` — its text is cut at the ends of its literals, and nowhere else.
* `Wording.chars_injective` — **no text has two wordings**.
* `Wording.tidy_chars` — which characters a wording has, and which of them may meet.
-/

namespace CabbageFormula

/-! ## Operands -/

/-- **What stands behind a sign**: a constant, or a roll, whose count may be left out. -/
inductive Operand where
  | constant (value : Literal)
  | roll (count? : Option Literal) (sides : Literal)
deriving DecidableEq

namespace Operand

def chars : Operand → List Char
  | constant value => value.digits
  | roll count? sides => count?.elim [] Literal.digits ++ 'c' :: sides.digits

def pieces : Operand → List (List Char)
  | constant value => [value.digits]
  | roll none sides => [['c'], sides.digits]
  | roll (some count) sides => [count.digits, ['c'], sides.digits]

/-- A constant has to fit; a roll is judged later. -/
def Fits : Operand → Prop
  | constant value => value.Fits
  | roll .. => True

/-- **The term that an operand means** behind a sign.  A count that is left out is one. -/
def term (s : Sign) : Operand → Term
  | constant value => .constant s value.capped
  | roll count? sides => .roll s (count?.elim 1 Literal.capped) sides.capped

def literals : Operand → List Literal
  | constant value => [value]
  | roll count? sides => count?.toList ++ [sides]

@[simp] lemma flatten_pieces (o : Operand) : o.pieces.flatten = o.chars := by
  rcases o with value | ⟨_ | count, sides⟩ <;> simp [pieces, chars]

/-- **An operand is cut into its pieces**, whatever follows it, if that is no digit. -/
lemma pieces_chars_append (o : Operand) {cs : List Char} (h : ∀ y ∈ cs.head?, y.isDigit = false) :
    CabbageFormula.pieces (o.chars ++ cs) = o.pieces ++ CabbageFormula.pieces cs := by
  rcases o with value | ⟨_ | count, sides⟩
  · exact pieces_digits_append value h
  · have hmark := pieces_cons (c := 'c') (by decide) (sides.digits ++ cs)
    have hsides := pieces_digits_append sides h
    simp [chars, pieces, hmark, hsides]
  · have hnondigit : ∀ y ∈ ('c' :: (sides.digits ++ cs)).head?, y.isDigit = false := by simp
    have hcount := pieces_digits_append count hnondigit
    have hmark := pieces_cons (c := 'c') (by decide) (sides.digits ++ cs)
    have hsides := pieces_digits_append sides h
    simp [chars, pieces, hcount, hmark, hsides]

end Operand

/-! ## Summands -/

/-- **An operand behind its sign.** -/
structure Summand where
  sign : Sign
  operand : Operand
deriving DecidableEq

namespace Summand

def chars (x : Summand) : List Char := x.sign.char :: x.operand.chars

def pieces (x : Summand) : List (List Char) := [x.sign.char] :: x.operand.pieces

/-- **The term that a summand means.** -/
def term (x : Summand) : Term := x.operand.term x.sign

end Summand

lemma Sign.isDigit_char : ∀ s : Sign, s.char.isDigit = false
  | .plus => by decide
  | .minus => by decide

lemma isDigit_head?_flatMap_chars (xs : List Summand) :
    ∀ y ∈ (xs.flatMap Summand.chars).head?, y.isDigit = false := by
  cases xs with
  | nil => simp
  | cons x xs =>
      intro y hy
      simp only [List.flatMap_cons, Summand.chars, List.cons_append, List.head?_cons,
        Option.mem_some_iff] at hy
      rw [← hy]
      exact x.sign.isDigit_char

/-- **Summands are cut into their pieces.** -/
lemma pieces_flatMap_chars (xs : List Summand) :
    pieces (xs.flatMap Summand.chars) = xs.flatMap Summand.pieces := by
  induction xs with
  | nil => rfl
  | cons x xs ih =>
      have hsign := pieces_cons x.sign.isDigit_char (x.operand.chars ++ xs.flatMap Summand.chars)
      have hoperand := x.operand.pieces_chars_append (isDigit_head?_flatMap_chars xs)
      simp only [List.flatMap_cons, Summand.chars, Summand.pieces, List.cons_append]
      rw [hsign, hoperand, ih]

/-! ## Wordings -/

/-- **A sum of terms as it is written**: a first summand, and any number of others. -/
structure Wording where
  first : Summand
  rest : List Summand
deriving DecidableEq

namespace Wording

def summands (w : Wording) : List Summand := w.first :: w.rest

/-- How the sign of the first summand is written: a plus is left out. -/
def lead : Sign → List Char
  | .plus => []
  | .minus => ['-']

/-- **A wording as text**: the first operand behind a minus or nothing, and then every other
summand with its sign. -/
def chars (w : Wording) : List Char :=
  lead w.first.sign ++ w.first.operand.chars ++ w.rest.flatMap Summand.chars

/-- **The terms of a wording**, one for each summand. -/
def terms (w : Wording) : List Term := w.summands.map Summand.term

def Fits (w : Wording) : Prop := ∀ x ∈ w.summands, x.operand.Fits

def literals (w : Wording) : List Literal := w.summands.flatMap fun x => x.operand.literals

def leadPieces : Sign → List (List Char)
  | .plus => []
  | .minus => [['-']]

/-- **A wording is cut into its pieces.** -/
theorem pieces_chars (w : Wording) :
    pieces w.chars =
      leadPieces w.first.sign ++ (w.first.operand.pieces ++ w.rest.flatMap Summand.pieces) := by
  have hbody : pieces (w.first.operand.chars ++ w.rest.flatMap Summand.chars) =
      w.first.operand.pieces ++ w.rest.flatMap Summand.pieces := by
    rw [w.first.operand.pieces_chars_append (isDigit_head?_flatMap_chars w.rest),
      pieces_flatMap_chars]
  rw [chars, List.append_assoc]
  cases w.first.sign with
  | plus => exact hbody
  | minus =>
      have hminus := pieces_cons (c := '-') (by decide)
        (w.first.operand.chars ++ w.rest.flatMap Summand.chars)
      rw [hbody] at hminus
      exact hminus

end Wording

/-! ## No text has two wordings -/

lemma Sign.char_injective : ∀ {s s' : Sign}, s.char = s'.char → s = s'
  | .plus, .plus, _ => rfl
  | .minus, .minus, _ => rfl

lemma Literal.digits_ne_singleton (l : Literal) {c : Char} (h : c.isDigit = false) :
    l.digits ≠ [c] := by
  intro hl
  have hc := l.isDigit c (by simp [hl])
  rw [h] at hc
  cases hc

lemma flatMap_pieces_ne_mark (xs : List Summand) (ps : List (List Char)) :
    xs.flatMap Summand.pieces ≠ ['c'] :: ps := by
  cases xs with
  | nil => simp
  | cons x xs =>
      intro h
      simp only [List.flatMap_cons, Summand.pieces, List.cons_append, List.cons.injEq,
        and_true] at h
      cases hs : x.sign <;> simp [hs, Sign.char] at h

/-- Where an operand ends, among the pieces of a sum, is plain from the pieces. -/
lemma Operand.pieces_append_inj {o o' : Operand} {xs ys : List Summand}
    (h : o.pieces ++ xs.flatMap Summand.pieces = o'.pieces ++ ys.flatMap Summand.pieces) :
    o = o' ∧ xs.flatMap Summand.pieces = ys.flatMap Summand.pieces := by
  have hmark : 'c'.isDigit = false := by decide
  rcases o with value | ⟨_ | count, sides⟩ <;> rcases o' with value' | ⟨_ | count', sides'⟩ <;>
    simp only [Operand.pieces, List.cons_append, List.nil_append, List.cons.injEq] at h
  · obtain ⟨hv, htail⟩ := h
    exact ⟨by rw [Literal.ext hv], htail⟩
  · exact absurd h.1 (value.digits_ne_singleton hmark)
  · exact absurd h.2 (flatMap_pieces_ne_mark _ _)
  · exact absurd h.1.symm (value'.digits_ne_singleton hmark)
  · obtain ⟨-, hs, htail⟩ := h
    exact ⟨by rw [Literal.ext hs], htail⟩
  · exact absurd h.1.symm (count'.digits_ne_singleton hmark)
  · exact absurd h.2.symm (flatMap_pieces_ne_mark _ _)
  · exact absurd h.1 (count.digits_ne_singleton hmark)
  · obtain ⟨hc, -, hs, htail⟩ := h
    exact ⟨by rw [Literal.ext hc, Literal.ext hs], htail⟩

lemma flatMap_pieces_injective {xs ys : List Summand}
    (h : xs.flatMap Summand.pieces = ys.flatMap Summand.pieces) : xs = ys := by
  induction xs generalizing ys with
  | nil =>
      cases ys with
      | nil => rfl
      | cons y ys => simp [Summand.pieces] at h
  | cons x xs ih =>
      cases ys with
      | nil => simp [Summand.pieces] at h
      | cons y ys =>
          simp only [List.flatMap_cons, Summand.pieces, List.cons_append, List.cons.injEq,
            and_true] at h
          obtain ⟨hsign, hrest⟩ := h
          obtain ⟨hoperand, htail⟩ := Operand.pieces_append_inj hrest
          obtain ⟨s, o⟩ := x
          obtain ⟨s', o'⟩ := y
          obtain rfl : s = s' := Sign.char_injective hsign
          obtain rfl : o = o' := hoperand
          rw [ih htail]

lemma Operand.pieces_ne_minus (o : Operand) (ps qs : List (List Char)) :
    o.pieces ++ ps ≠ ['-'] :: qs := by
  have hminus : '-'.isDigit = false := by decide
  intro h
  rcases o with value | ⟨_ | count, sides⟩ <;>
    simp only [Operand.pieces, List.cons_append, List.cons.injEq] at h
  · exact value.digits_ne_singleton hminus h.1
  · exact absurd h.1 (by decide)
  · exact count.digits_ne_singleton hminus h.1

/-- **No text has two wordings.** -/
theorem Wording.chars_injective {v w : Wording} (h : v.chars = w.chars) : v = w := by
  have hp : pieces v.chars = pieces w.chars := by rw [h]
  rw [Wording.pieces_chars, Wording.pieces_chars] at hp
  obtain ⟨⟨s, o⟩, xs⟩ := v
  obtain ⟨⟨s', o'⟩, ys⟩ := w
  cases s with
  | plus =>
      cases s' with
      | plus =>
          obtain ⟨ho, hrest⟩ := Operand.pieces_append_inj hp
          obtain rfl : o = o' := ho
          obtain rfl : xs = ys := flatMap_pieces_injective hrest
          rfl
      | minus => exact absurd hp (o.pieces_ne_minus _ _)
  | minus =>
      cases s' with
      | plus => exact absurd hp.symm (o'.pieces_ne_minus _ _)
      | minus =>
          obtain ⟨ho, hrest⟩ := Operand.pieces_append_inj (List.cons.inj hp).2
          obtain rfl : o = o' := ho
          obtain rfl : xs = ys := flatMap_pieces_injective hrest
          rfl

/-! ## What a wording looks like -/

/-- **What may follow what**: behind a sign an operand begins, and behind the mark there is a
digit. -/
def MayPrecede (a b : Char) : Prop :=
  (a = '+' ∨ a = '-' → b.isDigit = true ∨ b = 'c') ∧ (a = 'c' → b.isDigit = true)

/-- **The look of a sum of terms**, character by character. -/
structure Tidy (cs : List Char) : Prop where
  alphabet : ∀ c ∈ cs, c.isDigit = true ∨ c = 'c' ∨ c = '+' ∨ c = '-'
  no_leading_plus : cs.head? ≠ some '+'
  ends_in_digit : ∃ c, cs.getLast? = some c ∧ c.isDigit = true
  neighbours : cs.IsChain MayPrecede

/-- A stretch of a sum that may be followed by anything that may follow a digit. -/
structure Closed (cs : List Char) : Prop where
  alphabet : ∀ c ∈ cs, c.isDigit = true ∨ c = 'c' ∨ c = '+' ∨ c = '-'
  neighbours : cs.IsChain MayPrecede
  last : ∀ c ∈ cs.getLast?, c.isDigit = true

lemma mayPrecede_of_isDigit {a : Char} (h : a.isDigit = true) (b : Char) : MayPrecede a b := by
  have hne : ∀ c : Char, c.isDigit = false → a ≠ c := by
    intro c hc hac
    rw [hac, hc] at h
    cases h
  refine ⟨?_, ?_⟩
  · rintro (ha | ha)
    · exact absurd ha (hne _ (by decide))
    · exact absurd ha (hne _ (by decide))
  · intro ha
    exact absurd ha (hne _ (by decide))

namespace Closed

variable {cs ds : List Char}

lemma nil : Closed [] := ⟨by simp, List.isChain_nil, by simp⟩

lemma append (hc : Closed cs) (hd : Closed ds) : Closed (cs ++ ds) := by
  refine ⟨?_, ?_, ?_⟩
  · intro c h
    rcases List.mem_append.mp h with h | h
    · exact hc.alphabet c h
    · exact hd.alphabet c h
  · refine List.isChain_append.mpr ⟨hc.neighbours, hd.neighbours, ?_⟩
    intro x hx y _
    exact mayPrecede_of_isDigit (hc.last x hx) y
  · intro c h
    rw [List.getLast?_append] at h
    cases hlast : ds.getLast? with
    | none => rw [hlast] at h; exact hc.last c h
    | some d => rw [hlast] at h; exact hd.last c (hlast ▸ h)

/-- A sign or the mark may be put before what may follow it. -/
lemma cons {c : Char} (hd : Closed ds) (hne : ds ≠ [])
    (hc : c.isDigit = true ∨ c = 'c' ∨ c = '+' ∨ c = '-')
    (hmeet : ∀ y ∈ ds.head?, MayPrecede c y) : Closed (c :: ds) := by
  refine ⟨?_, List.isChain_cons.mpr ⟨hmeet, hd.neighbours⟩, ?_⟩
  · intro a ha
    rcases List.mem_cons.mp ha with rfl | ha
    · exact hc
    · exact hd.alphabet a ha
  · intro a ha
    obtain ⟨d, ds', rfl⟩ := List.exists_cons_of_ne_nil hne
    rw [List.getLast?_cons_cons] at ha
    exact hd.last a ha

end Closed

lemma Literal.closed_digits (l : Literal) : Closed l.digits := by
  refine ⟨fun c hc => Or.inl (l.isDigit c hc), ?_, ?_⟩
  · refine List.Pairwise.isChain (List.pairwise_of_forall_mem_list ?_)
    intro a ha b _
    exact mayPrecede_of_isDigit (l.isDigit a ha) b
  · intro c hc
    exact l.isDigit c (List.mem_of_getLast? hc)

namespace Operand

lemma closed_chars (o : Operand) : Closed o.chars := by
  have hmarked : ∀ l : Literal, Closed ('c' :: l.digits) := by
    intro l
    refine l.closed_digits.cons l.ne_nil (Or.inr (Or.inl rfl)) ?_
    intro y hy
    exact ⟨by simp, fun _ => l.isDigit y (List.mem_of_mem_head? hy)⟩
  rcases o with value | ⟨_ | count, sides⟩
  · exact value.closed_digits
  · exact hmarked sides
  · exact count.closed_digits.append (hmarked sides)

lemma head?_chars (o : Operand) : ∀ y ∈ o.chars.head?, y.isDigit = true ∨ y = 'c' := by
  have hliteral : ∀ (l : Literal) (cs : List Char),
      ∀ y ∈ (l.digits ++ cs).head?, y.isDigit = true ∨ y = 'c' := by
    intro l cs y hy
    rw [List.head?_append_of_ne_nil _ l.ne_nil] at hy
    exact Or.inl (l.isDigit y (List.mem_of_mem_head? hy))
  rcases o with value | ⟨_ | count, sides⟩
  · have h := hliteral value []
    rw [List.append_nil] at h
    exact h
  · intro y hy
    exact Or.inr (Option.some.inj hy).symm
  · exact hliteral count _

lemma chars_ne_nil (o : Operand) : o.chars ≠ [] := by
  rcases o with value | ⟨_ | count, sides⟩
  · exact value.ne_nil
  · simp [chars]
  · simp [chars]

end Operand

lemma Summand.closed_chars (x : Summand) : Closed x.chars := by
  have hsign : x.sign.char = '+' ∨ x.sign.char = '-' := by
    cases x.sign with
    | plus => exact Or.inl rfl
    | minus => exact Or.inr rfl
  refine x.operand.closed_chars.cons x.operand.chars_ne_nil (Or.inr (Or.inr hsign)) ?_
  intro y hy
  refine ⟨fun _ => x.operand.head?_chars y hy, ?_⟩
  intro hmark
  rcases hsign with h | h
  · rw [h] at hmark
    exact absurd hmark (by decide)
  · rw [h] at hmark
    exact absurd hmark (by decide)

lemma closed_flatMap_chars (xs : List Summand) : Closed (xs.flatMap Summand.chars) := by
  induction xs with
  | nil => exact Closed.nil
  | cons x xs ih => exact x.closed_chars.append ih

/-- **A wording is tidy**: it has digits, marks and signs only, it neither begins with a plus nor
ends in anything but a digit, no two signs meet, and no mark is without a digit behind it. -/
theorem Wording.tidy_chars (w : Wording) : Tidy w.chars := by
  obtain ⟨⟨s, o⟩, xs⟩ := w
  have hfront : Closed (lead s ++ o.chars) ∧ lead s ++ o.chars ≠ [] ∧
      (lead s ++ o.chars).head? ≠ some '+' := by
    cases s with
    | plus =>
        refine ⟨o.closed_chars, o.chars_ne_nil, ?_⟩
        intro h
        rcases o.head?_chars '+' h with h | h
        · exact absurd h (by decide)
        · exact absurd h (by decide)
    | minus => exact ⟨Summand.closed_chars ⟨.minus, o⟩, by simp [lead], by simp [lead]⟩
  obtain ⟨hclosed, hne, hplus⟩ := hfront
  have hwhole : Closed (chars ⟨⟨s, o⟩, xs⟩) := hclosed.append (closed_flatMap_chars xs)
  have hwne : chars ⟨⟨s, o⟩, xs⟩ ≠ [] := List.append_ne_nil_of_left_ne_nil hne _
  refine ⟨hwhole.alphabet, ?_, ?_, hwhole.neighbours⟩
  · rw [chars, List.head?_append_of_ne_nil _ hne]
    exact hplus
  · have hlast := List.getLast?_eq_some_getLast hwne
    exact ⟨_, hlast, hwhole.last _ hlast⟩

end CabbageFormula
