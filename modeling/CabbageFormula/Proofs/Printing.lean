import CabbageFormula.Proofs.Screening
import CabbageFormula.Session

/-!
# Printing and reading

Terms are printed one after the other, each with its sign and its numbers in full, and without a
plus in front.  What is printed is again a wording, the one with the shortest literals, and so it
is read as the terms that it was printed from.

* `printed` — terms as one text.
* `Term.summand`, `Wording.ofTerms` — how a term is worded in print, and the wording of them all.
* `toList_printed` — the print of terms is the text of that wording.
* `readTerms_printed`, `Formula.read_printed` — a print is read as its terms.
* `Wording.length_printed_terms_le` — no wording of the same terms is shorter than their print, but
  for the counts that it leaves out.
* `print_read_inverse` — both directions, through all stages.
-/

namespace CabbageFormula

/-- **Terms as one text**: their texts one after the other, without a plus in front. -/
def printed (terms : List Term) : String :=
  String.ofList (dropPlus (terms.flatMap fun t => t.text.toList))

/-! ## The wording of a print -/

/-- **How a term is worded in print**: with its count, and without leading zeros. -/
def Term.summand : Term → Summand
  | .constant s value => ⟨s, .constant (.ofNat value.toNat)⟩
  | .roll s count sides => ⟨s, .roll (some (.ofNat count.toNat)) (.ofNat sides.toNat)⟩

namespace Literal

lemma fits_ofNat (n : UInt64) : (ofNat n.toNat).Fits := by
  show (ofNat n.toNat).value < 2 ^ 64
  rw [value_ofNat]
  exact n.toNat_lt

@[simp] lemma capped_ofNat (n : UInt64) : (ofNat n.toNat).capped = n := by
  rw [← getD_word?]
  show (Numeral.word? (Numeral.digits n.toNat)).getD Word.top = n
  rw [Numeral.word?_digits, Option.getD_some]

lemma toNat_capped_le (l : Literal) : l.capped.toNat ≤ l.value := by
  rw [toNat_capped]
  exact Nat.min_le_left _ _

end Literal

namespace Term

lemma chars_summand (t : Term) : t.summand.chars = t.text.toList := by
  cases t with
  | constant s value => simp [summand, Summand.chars, Operand.chars, Literal.ofNat]
  | roll s count sides => simp [summand, Summand.chars, Operand.chars, Literal.ofNat]

@[simp] lemma term_summand (t : Term) : t.summand.term = t := by
  cases t with
  | constant s value => simp [summand, Summand.term, Operand.term]
  | roll s count sides => simp [summand, Summand.term, Operand.term]

lemma fits_summand (t : Term) : t.summand.operand.Fits := by
  cases t with
  | constant s value => exact Literal.fits_ofNat value
  | roll s count sides => trivial

end Term

/-- **The wording of terms in print.** -/
def Wording.ofTerms (first : Term) (rest : List Term) : Wording :=
  ⟨first.summand, rest.map Term.summand⟩

namespace Wording

variable (first : Term) (rest : List Term)

lemma summands_ofTerms : (ofTerms first rest).summands = (first :: rest).map Term.summand := rfl

@[simp] lemma terms_ofTerms : (ofTerms first rest).terms = first :: rest := by
  rw [terms, summands_ofTerms, List.map_map]
  have hid : Summand.term ∘ Term.summand = id := funext Term.term_summand
  rw [hid, List.map_id]

lemma fits_ofTerms : (ofTerms first rest).Fits := by
  intro x hx
  rw [summands_ofTerms] at hx
  obtain ⟨t, -, rfl⟩ := List.mem_map.mp hx
  exact t.fits_summand

end Wording

/-- Without a plus in front, a summand is what a wording begins with. -/
lemma dropPlus_chars_append (x : Summand) (cs : List Char) :
    dropPlus (x.chars ++ cs) = Wording.lead x.sign ++ x.operand.chars ++ cs := by
  obtain ⟨s, o⟩ := x
  cases s with
  | plus => exact dropPlus_plus _
  | minus =>
      have hminus : Sign.minus.char ≠ '+' := by decide
      exact dropPlus_of_ne hminus _

/-- **The print of terms is a wording.** -/
lemma toList_printed (first : Term) (rest : List Term) :
    (printed (first :: rest)).toList = (Wording.ofTerms first rest).chars := by
  have hrest : (rest.flatMap fun t => t.text.toList) =
      (rest.map Term.summand).flatMap Summand.chars := by
    rw [List.flatMap_map]
    simp only [Term.chars_summand]
  rw [printed, String.toList_ofList, List.flatMap_cons, hrest, ← first.chars_summand,
    dropPlus_chars_append]
  rfl

/-! ## Reading a print -/

lemma readTerms_printed {terms : List Term} (hne : terms ≠ []) {max : Nat}
    (hcap : terms.length ≤ max) : readTerms max (printed terms) = .ok terms := by
  obtain ⟨first, rest, rfl⟩ := List.exists_cons_of_ne_nil hne
  rw [readTerms_chars (toList_printed first rest) (Wording.fits_ofTerms first rest),
    Wording.terms_ofTerms]
  rw [Wording.summands_ofTerms, List.length_map]
  exact hcap

/-- **A print passes the screening** and is read as its terms, if the caps have room for it. -/
lemma Formula.read_printed {terms : List Term} (hne : terms ≠ []) {caps : Caps}
    (hterms : terms.length ≤ caps.terms.toNat)
    (hlength : (printed terms).length ≤ caps.length.toNat) :
    Formula.read caps (printed terms) = .ok terms := by
  obtain ⟨first, rest, rfl⟩ := List.exists_cons_of_ne_nil hne
  have htext : printed (first :: rest) = String.ofList (Wording.ofTerms first rest).chars := by
    rw [← toList_printed, String.ofList_toList]
  rw [htext, String.length_ofList] at hlength
  rw [htext, Formula.read_chars (Wording.fits_ofTerms first rest) hlength, Wording.terms_ofTerms]
  rw [Wording.summands_ofTerms, List.length_map]
  exact hterms

/-! ## The length of a print -/

/-- Whether an operand is a roll without a written count. -/
def Operand.bare : Operand → Bool
  | .roll none _ => true
  | _ => false

/-- **How many rolls are written without a count.** -/
def Wording.bareRolls (w : Wording) : Nat := w.summands.countP fun x => x.operand.bare

lemma Summand.sign_summand_term (x : Summand) : x.term.summand.sign = x.sign := by
  rcases x with ⟨s, value | ⟨_ | count, sides⟩⟩ <;> rfl

/-- **In print an operand has no more characters than written**, but for a count that is left
out. -/
lemma Summand.length_operand_summand_term_le (x : Summand) :
    x.term.summand.operand.chars.length ≤
      x.operand.chars.length + if x.operand.bare then 1 else 0 := by
  have hshort : ∀ l : Literal, (Literal.ofNat l.capped.toNat).digits.length ≤ l.digits.length :=
    fun l => Literal.length_digits_ofNat_le l.toNat_capped_le
  rcases x with ⟨s, value | ⟨_ | count, sides⟩⟩
  · exact hshort value
  · -- the print has a count, and the text has none
    have hone : (Literal.ofNat (1 : UInt64).toNat).digits.length = 1 := by decide
    have hsides := hshort sides
    simp only [Summand.term, Operand.term, Term.summand, Operand.chars, Operand.bare,
      Option.elim_none, Option.elim_some, List.length_append, List.length_cons, List.length_nil,
      if_true, hone]
    omega
  · have hcount := hshort count
    have hsides := hshort sides
    simp only [Summand.term, Operand.term, Term.summand, Operand.chars, Operand.bare,
      Option.elim_some, List.length_append, List.length_cons]
    omega

lemma length_flatMap_chars_le (xs : List Summand) :
    ((xs.map fun x => x.term.summand).flatMap Summand.chars).length ≤
      (xs.flatMap Summand.chars).length + xs.countP fun x => x.operand.bare := by
  induction xs with
  | nil => simp
  | cons x xs ih =>
      have hx := x.length_operand_summand_term_le
      simp only [List.map_cons, List.flatMap_cons, List.length_append, Summand.chars,
        List.length_cons, List.countP_cons] at ih ⊢
      omega

/-- **No wording is shorter than the print of its terms**, but for the counts that it leaves
out. -/
lemma Wording.length_printed_terms_le (w : Wording) :
    (printed w.terms).length ≤ w.chars.length + w.bareRolls := by
  obtain ⟨x, xs⟩ := w
  have hfirst := x.length_operand_summand_term_le
  have hrest := length_flatMap_chars_le xs
  have hprinted := toList_printed x.term (xs.map Summand.term)
  have hlength : (printed (terms ⟨x, xs⟩)).length =
      (ofTerms x.term (xs.map Summand.term)).chars.length := by
    rw [← hprinted, String.length_toList]
    rfl
  rw [hlength, ofTerms, List.map_map]
  simp only [chars, bareRolls, summands, x.sign_summand_term, List.length_append,
    List.countP_cons, Function.comp_def] at hrest ⊢
  omega

/-! ## Both directions -/

/-- **Printing and reading are inverse.**  The print of any terms, if there are any, is read as
these terms under every cap that has room for their number, and a formula that is their print is
rolled as they are: with the same result, the same draws and events, and the same state of the
source behind it.  Conversely, a text that is read is a wording of its terms, their print is read
as the same terms, and the print is no longer than the text and one character for every roll
that the text has without a count. -/
theorem print_read_inverse (terms : List Term) :
    (terms ≠ [] →
      (∀ max : Nat, terms.length ≤ max → readTerms max (printed terms) = .ok terms) ∧
      ∀ caps : Caps, terms.length ≤ caps.terms.toNat →
        (printed terms).length ≤ caps.length.toNat →
          ∀ (σ : Type) [RollSource σ] (source : σ), attempt caps (printed terms) source =
            { result := (evaluate caps terms source).1.mapError .roll
              source := (evaluate caps terms source).2.source
              draws := (evaluate caps terms source).2.draws
              events := (evaluate caps terms source).2.events }) ∧
    ∀ (max : Nat) (s : String), readTerms max s = .ok terms →
      terms ≠ [] ∧ readTerms max (printed terms) = .ok terms ∧
        ∃ w : Wording, s.toList = w.chars ∧ w.terms = terms ∧
          (printed terms).length ≤ s.length + w.bareRolls := by
  refine ⟨fun hne => ⟨fun max => readTerms_printed hne, ?_⟩, ?_⟩
  · intro caps hterms hlength σ _ source
    exact attempt_of_ok (Formula.read_printed hne hterms hlength) source
  · intro max s h
    obtain ⟨w, hs, -, hcap, rfl⟩ := exists_wording_of_readTerms h
    have hne : w.terms ≠ [] := by simp [Wording.terms, Wording.summands]
    refine ⟨hne, readTerms_printed hne ?_, w, hs, rfl, ?_⟩
    · rw [Wording.terms, List.length_map]
      exact hcap
    · have hlength : s.length = w.chars.length := by rw [← String.length_toList, hs]
      rw [hlength]
      exact w.length_printed_terms_le

/-- The least and the greatest numbers in print, and read back. -/
theorem print_read_extremes :
    printed [.roll .minus 0 Word.top, .constant .plus 0] = "-0c18446744073709551615+0" ∧
      readTerms 2 (printed [.roll .minus 0 Word.top, .constant .plus 0]) =
        .ok [.roll .minus 0 Word.top, .constant .plus 0] :=
  ⟨by decide +kernel, ((print_read_inverse _).1 (by simp)).1 2 (by simp)⟩

end CabbageFormula
