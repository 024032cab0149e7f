import CabbageFormula.Proofs.Precedence
import CabbageFormula.Proofs.Printing

/-!
# Joining texts and cutting them

A sum may be continued by another, behind a sign, and cut in two in front of any of its signs.  The
ends of a text are special when it is read, since a sign is understood at each of them; but nothing
of this is left in the terms.

* `Wording.join` — one wording behind another, and `Wording.chars_join`, its text.
* `Wording.behindMinus` — a wording whose first sign has been turned to a minus.
* `underCap`, `Wording.readTerms_eq` — what becomes of a wording under any cap on terms.
* `exists_summands_of_cut`, `Wording.exists_join_of_cut` — a sign in a text is that of a summand, so
  that **a text cut in front of a sign is one wording behind another**.
* `readTerms_joined_of_minus`, `readTerms_joined_of_ne_minus`, `exists_readTerms_of_cut` — texts
  that are read, joined and cut.
* `readTerms_joined_and_cut` — both directions.
-/

namespace CabbageFormula

/-- A term under another sign. -/
def Term.withSign (s : Sign) : Term → Term
  | .constant _ value => .constant s value
  | .roll _ count sides => .roll s count sides

lemma Operand.term_withSign (o : Operand) (s s' : Sign) :
    (o.term s').withSign s = o.term s := by
  cases o with
  | constant value => rfl
  | roll count? sides => rfl

/-! ## Joining -/

namespace Wording

/-- **One wording behind another**, each of its summands with its sign. -/
def join (v w : Wording) : Wording := ⟨v.first, v.rest ++ w.summands⟩

@[simp] lemma summands_join (v w : Wording) : (v.join w).summands = v.summands ++ w.summands := rfl

lemma chars_join (v w : Wording) :
    (v.join w).chars = v.chars ++ w.summands.flatMap Summand.chars := by
  simp [chars, join]

lemma terms_join (v w : Wording) : (v.join w).terms = v.terms ++ w.terms := by
  simp [terms]

lemma fits_join {v w : Wording} (hv : v.Fits) (hw : w.Fits) : (v.join w).Fits := by
  intro x hx
  rw [summands_join] at hx
  rcases List.mem_append.mp hx with hx | hx
  · exact hv x hx
  · exact hw x hx

lemma fits_of_join {v w : Wording} (h : (v.join w).Fits) : v.Fits ∧ w.Fits :=
  ⟨fun x hx => h x (List.mem_append_left _ hx),
    fun x hx => h x (List.mem_append_right v.summands hx)⟩

/-- The text of a wording is that of its summands, without a plus in front. -/
lemma dropPlus_flatMap_summands (w : Wording) :
    dropPlus (w.summands.flatMap Summand.chars) = w.chars := by
  rw [summands, List.flatMap_cons, dropPlus_chars_append]
  rfl

/-- Only a first summand with a minus writes its sign. -/
lemma head?_chars_eq_minus_iff (w : Wording) :
    w.chars.head? = some '-' ↔ w.first.sign = .minus := by
  obtain ⟨⟨s, o⟩, xs⟩ := w
  cases s with
  | minus => exact iff_of_true rfl rfl
  | plus =>
      refine iff_of_false ?_ (by simp)
      intro h
      rw [chars, lead, List.nil_append, List.head?_append_of_ne_nil _ o.chars_ne_nil] at h
      rcases o.head?_chars '-' h with h | h
      · exact absurd h (by decide)
      · exact absurd h (by decide)

lemma flatMap_summands_of_minus {w : Wording} (h : w.first.sign = .minus) :
    w.summands.flatMap Summand.chars = w.chars := by
  rw [chars, h, summands, List.flatMap_cons, Summand.chars, h]
  rfl

lemma flatMap_summands_of_plus {w : Wording} (h : w.first.sign = .plus) :
    w.summands.flatMap Summand.chars = '+' :: w.chars := by
  rw [chars, h, summands, List.flatMap_cons, Summand.chars, h]
  rfl

/-- **A wording behind a minus**, which takes the place of the plus that its first summand has. -/
def behindMinus (w : Wording) : Wording := ⟨⟨.minus, w.first.operand⟩, w.rest⟩

lemma chars_behindMinus {w : Wording} (h : w.first.sign = .plus) :
    w.behindMinus.chars = '-' :: w.chars := by
  rw [chars, chars, h]
  rfl

lemma terms_behindMinus (w : Wording) :
    w.behindMinus.terms = w.terms.modifyHead (Term.withSign .minus) := by
  have hfirst := w.first.operand.term_withSign .minus w.first.sign
  show Operand.term .minus w.first.operand :: _ = Term.withSign .minus w.first.term :: _
  rw [Summand.term, hfirst]
  rfl

lemma fits_behindMinus {w : Wording} (h : w.Fits) : w.behindMinus.Fits := by
  intro x hx
  rcases List.mem_cons.mp hx with rfl | hx
  · exact h w.first List.mem_cons_self
  · exact h x (List.mem_cons_of_mem _ hx)

end Wording

/-! ## Under a cap -/

/-- **Terms under a cap** on their number: they pass, or the cap is hit. -/
def underCap (max : Nat) (terms : List Term) : Except ReadFault (List Term) :=
  if terms.length ≤ max then .ok terms else .error (.termCap max)

/-- **A wording is read as its terms**, if the cap has room for them, and hits it otherwise. -/
lemma Wording.readTerms_eq {w : Wording} {s : String} (hs : s.toList = w.chars) (hfits : w.Fits)
    (max : Nat) : readTerms max s = underCap max w.terms :=
  readTerms_of_ok (readTerms_chars hs hfits (Nat.le_refl _))

/-- **A text that goes on with the summands of another wording** is read as the terms of both. -/
lemma Wording.readTerms_append {v w : Wording} {a b : String} (ha : a.toList = v.chars)
    (hb : b.toList = w.summands.flatMap Summand.chars) (hv : v.Fits) (hw : w.Fits) (max : Nat) :
    readTerms max (a ++ b) = underCap max (v.terms ++ w.terms) := by
  have hjoin : (a ++ b).toList = (v.join w).chars := by
    rw [String.toList_append, ha, hb, chars_join]
  rw [readTerms_eq hjoin (fits_join hv hw), terms_join]

/-! ## Cutting -/

lemma Operand.sign_notMem_chars (o : Operand) (s : Sign) : s.char ∉ o.chars := by
  have hmark : s.char ≠ 'c' := by
    cases s with
    | plus => decide
    | minus => decide
  have hliteral : ∀ l : Literal, s.char ∉ l.digits := by
    intro l h
    have hdigit := l.isDigit _ h
    rw [s.isDigit_char] at hdigit
    cases hdigit
  rcases o with value | ⟨_ | count, sides⟩
  · exact hliteral value
  · simp [chars, hmark, hliteral]
  · simp [chars, hmark, hliteral]

/-- **A sign in a text is that of a summand**: what stands in front of it ends with the summand
before. -/
lemma exists_summands_of_cut {s : Sign} {back : List Char} (xs : List Summand) :
    ∀ {o : Operand} {front : List Char},
      o.chars ++ xs.flatMap Summand.chars = front ++ s.char :: back →
        ∃ us x vs, xs = us ++ x :: vs ∧ front = o.chars ++ us.flatMap Summand.chars ∧
          s.char :: back = (x :: vs).flatMap Summand.chars := by
  induction xs with
  | nil =>
      intro o front h
      have hmem : s.char ∈ o.chars := by
        rw [List.flatMap_nil, List.append_nil] at h
        rw [h]
        simp
      exact absurd hmem (o.sign_notMem_chars s)
  | cons x xs ih =>
      intro o front h
      have hhere : front = o.chars → s.char :: back = (x :: xs).flatMap Summand.chars →
          ∃ us y vs, x :: xs = us ++ y :: vs ∧ front = o.chars ++ us.flatMap Summand.chars ∧
            s.char :: back = (y :: vs).flatMap Summand.chars :=
        fun hfront hback => ⟨[], x, xs, rfl, by rw [hfront]; simp, hback⟩
      rcases List.append_eq_append_iff.mp h with ⟨as, hfront, hback⟩ | ⟨bs, hchars, hback⟩
      · -- the cut is behind the first operand, at the sign of the next summand or further on
        cases as with
        | nil =>
            rw [List.append_nil] at hfront
            exact hhere hfront hback.symm
        | cons a as =>
            rw [List.flatMap_cons, Summand.chars, List.cons_append, List.cons_append,
              List.cons.injEq] at hback
            obtain ⟨rfl, hback⟩ := hback
            obtain ⟨us, y, vs, rfl, rfl, hrest⟩ := ih hback
            exact ⟨x :: us, y, vs, rfl, by rw [hfront]; rfl, hrest⟩
      · -- it is not within the operand, which has no sign
        cases bs with
        | nil =>
            rw [List.append_nil] at hchars
            exact hhere hchars.symm hback
        | cons b bs =>
            have hb : s.char = b := (List.cons.inj hback).1
            have hmem : s.char ∈ o.chars := by
              rw [hchars, hb]
              simp
            exact absurd hmem (o.sign_notMem_chars s)

/-- **A text that is cut in front of a sign** is one wording behind another. -/
lemma Wording.exists_join_of_cut {w : Wording} {s : Sign} {front back : List Char}
    (hne : front ≠ []) (h : w.chars = front ++ s.char :: back) :
    ∃ u v : Wording, w = u.join v ∧ front = u.chars ∧ dropPlus (s.char :: back) = v.chars := by
  obtain ⟨⟨t, o⟩, xs⟩ := w
  cases t with
  | plus =>
      obtain ⟨us, x, vs, rfl, rfl, hback⟩ := exists_summands_of_cut xs h
      refine ⟨⟨⟨.plus, o⟩, us⟩, ⟨x, vs⟩, rfl, rfl, ?_⟩
      rw [hback]
      exact dropPlus_flatMap_summands ⟨x, vs⟩
  | minus =>
      obtain ⟨a, front, rfl⟩ := List.exists_cons_of_ne_nil hne
      obtain ⟨rfl, hrest⟩ := List.cons.inj h
      obtain ⟨us, x, vs, rfl, rfl, hback⟩ := exists_summands_of_cut xs hrest
      refine ⟨⟨⟨.minus, o⟩, us⟩, ⟨x, vs⟩, rfl, rfl, ?_⟩
      rw [hback]
      exact dropPlus_flatMap_summands ⟨x, vs⟩

/-! ## Both directions -/

section Joined

variable {a b : String} {ta tb : List Term} {m n : Nat}

lemma readTerms_joined_of_minus (ha : readTerms m a = .ok ta) (hb : readTerms n b = .ok tb)
    (hminus : b.toList.head? = some '-') (max : Nat) :
    readTerms max (a ++ b) = underCap max (ta ++ tb) := by
  obtain ⟨v, hv, hvfits, -, rfl⟩ := exists_wording_of_readTerms ha
  obtain ⟨w, hw, hwfits, -, rfl⟩ := exists_wording_of_readTerms hb
  rw [hw, w.head?_chars_eq_minus_iff] at hminus
  refine Wording.readTerms_append hv ?_ hvfits hwfits max
  rw [hw, Wording.flatMap_summands_of_minus hminus]

lemma readTerms_joined_of_ne_minus (ha : readTerms m a = .ok ta) (hb : readTerms n b = .ok tb)
    (hother : b.toList.head? ≠ some '-') (max : Nat) :
    readTerms max (a ++ "+" ++ b) = underCap max (ta ++ tb) ∧
      readTerms max (a ++ "-" ++ b) =
        underCap max (ta ++ tb.modifyHead (Term.withSign .minus)) := by
  obtain ⟨v, hv, hvfits, -, rfl⟩ := exists_wording_of_readTerms ha
  obtain ⟨w, hw, hwfits, -, rfl⟩ := exists_wording_of_readTerms hb
  rw [hw, Ne, w.head?_chars_eq_minus_iff] at hother
  have hplus : w.first.sign = .plus := by
    cases hsign : w.first.sign with
    | plus => rfl
    | minus => exact absurd hsign hother
  rw [String.append_assoc, String.append_assoc, ← w.terms_behindMinus]
  constructor
  · refine Wording.readTerms_append hv ?_ hvfits hwfits max
    rw [String.toList_append, hw, Wording.flatMap_summands_of_plus hplus]
    rfl
  · refine Wording.readTerms_append hv ?_ hvfits (Wording.fits_behindMinus hwfits) max
    rw [String.toList_append, hw, Wording.flatMap_summands_of_minus rfl,
      Wording.chars_behindMinus hplus]
    rfl

end Joined

lemma exists_readTerms_of_cut {a b : String} {terms : List Term} {max : Nat} {s : Sign}
    (h : readTerms max (a ++ b) = .ok terms) (hne : a ≠ "")
    (hs : b.toList.head? = some s.char) :
    ∃ ta tb, readTerms max a = .ok ta ∧
      readTerms max (String.ofList (dropPlus b.toList)) = .ok tb ∧ terms = ta ++ tb := by
  obtain ⟨w, hw, hfits, hcap, rfl⟩ := exists_wording_of_readTerms h
  obtain ⟨back, hback⟩ := List.head?_eq_some_iff.mp hs
  have hfront : a.toList ≠ [] := fun e => hne (String.toList_eq_nil_iff.mp e)
  rw [String.toList_append, hback] at hw
  obtain ⟨u, v, rfl, hu, hv⟩ := Wording.exists_join_of_cut hfront hw.symm
  obtain ⟨hufits, hvfits⟩ := Wording.fits_of_join hfits
  rw [Wording.summands_join, List.length_append] at hcap
  refine ⟨u.terms, v.terms, readTerms_chars hu hufits (by omega), ?_, u.terms_join v⟩
  rw [hback, hv]
  exact readTerms_chars String.toList_ofList hvfits (by omega)

/-- **Texts that are joined, and texts that are cut.**  If two texts are read, then so is the one
behind the other, as the terms of both, if the cap has room for them; else the cap is hit.  If the
second does not begin with a minus, a sign has to be put between them, and if this is a minus, it is
that of the first of its terms.  Conversely, if a text that is read is cut in front of a sign, but
not at its beginning, then both parts are read, the second without the plus that it may begin with,
and together their terms are those of the text. -/
theorem readTerms_joined_and_cut :
    (∀ (a b : String) (ta tb : List Term) (m n : Nat),
      readTerms m a = .ok ta → readTerms n b = .ok tb → ∀ max : Nat,
        (b.toList.head? = some '-' → readTerms max (a ++ b) = underCap max (ta ++ tb)) ∧
        (b.toList.head? ≠ some '-' →
          readTerms max (a ++ "+" ++ b) = underCap max (ta ++ tb) ∧
          readTerms max (a ++ "-" ++ b) =
            underCap max (ta ++ tb.modifyHead (Term.withSign .minus)))) ∧
    (∀ (a b : String) (terms : List Term) (max : Nat), readTerms max (a ++ b) = .ok terms →
      a ≠ "" → ∀ s : Sign, b.toList.head? = some s.char →
        ∃ ta tb, readTerms max a = .ok ta ∧
          readTerms max (String.ofList (dropPlus b.toList)) = .ok tb ∧ terms = ta ++ tb) := by
  constructor
  · intro a b ta tb m n ha hb max
    exact ⟨fun hminus => readTerms_joined_of_minus ha hb hminus max,
      fun hother => readTerms_joined_of_ne_minus ha hb hother max⟩
  · intro a b terms max h hne s hs
    exact exists_readTerms_of_cut h hne hs

/-- Constants and a roll on either side of a minus, the text that is made of them, and this text cut
in front of another sign. -/
theorem readTerms_joined_and_cut_at_minus :
    readTerms 2 "7-2" = .ok [.constant .plus 7, .constant .minus 2] ∧
      readTerms 1 "3c6" = .ok [.roll .plus 3 6] ∧ "3c6".toList.head? ≠ some '-' ∧
        readTerms 3 "7-2-3c6" =
          .ok [.constant .plus 7, .constant .minus 2, .roll .minus 3 6] ∧
          readTerms 2 "7-2-3c6" = .error (.termCap 2) ∧
            ∃ ta tb, readTerms 3 "7" = .ok ta ∧ readTerms 3 "-2-3c6" = .ok tb ∧
              [.constant .plus 7, .constant .minus 2, .roll .minus 3 6] = ta ++ tb := by
  have ha : readTerms 2 "7-2" = .ok [.constant .plus 7, .constant .minus 2] := by decide +kernel
  have hb : readTerms 1 "3c6" = .ok [.roll .plus 3 6] := by decide +kernel
  have hplus : "3c6".toList.head? ≠ some '-' := by decide +kernel
  obtain ⟨hjoin, hcut⟩ := readTerms_joined_and_cut
  have hjoined := hjoin "7-2" "3c6" _ _ 2 1 ha hb
  have hread := ((hjoined 3).2 hplus).2
  exact ⟨ha, hb, hplus, hread, ((hjoined 2).2 hplus).2,
    hcut "7" "-2-3c6" _ 3 hread (by decide) .minus rfl⟩

end CabbageFormula
