import CabbageFormula.Proofs.Ledger
import CabbageFormula.Proofs.Printing
import CabbageFormula.Proofs.Traces
import CabbageFormula.Proofs.Verdict
import CabbageFormula.Source.Scripted

/-!
# Reading a trace again

The text of a trace is a sum, but for the brackets around what cabbages showed.  Without them it is
the print of constants, one for each entry, and to add these up proves the total.

* `Entry.constantTerm`, `Entry.plain` — the constant that an entry comes to, as a term and as an
  entry.
* `unbracketed_traceText` — the text of a trace without brackets is the print of its constants.
* `evaluate_constants` — constants come to their exact total, without a draw.
* `Outcome.Provable` — **the trace of an outcome proves its total**.
* `Formula.exists_wording_of_read` — what is known of a formula that has been read.
* `trace_proves_total` — every trace does, and the trace of constants is a formula of its own.
-/

namespace CabbageFormula

/-! ## Entries as constants -/

namespace Entry

/-- **The constant that an entry comes to**, as a term. -/
def constantTerm : Entry → Term
  | constant s v => .constant s v
  | rolled s v => .constant s v

/-- The entry of that constant. -/
def plain : Entry → Entry
  | constant s v => constant s v
  | rolled s v => constant s v

lemma text_plain (e : Entry) : e.plain.text = e.constantTerm.text := by
  cases e <;> rfl

lemma amount_plain (e : Entry) : e.plain.amount = e.amount := by
  cases e <;> rfl

end Entry

lemma exactTotal_map_plain (entries : List Entry) :
    exactTotal (entries.map Entry.plain) = exactTotal entries := by
  rw [exactTotal, List.map_map, exactTotal]
  exact congrArg List.sum (List.map_congr_left fun e _ => e.amount_plain)

/-- Terms without a roll are the constants of some entries. -/
lemma exists_entries_of_rolls_eq_nil {terms : List Term} (h : rolls terms = []) :
    ∃ entries : List Entry,
      entries.map Entry.constantTerm = terms ∧ entries.map Entry.plain = entries := by
  induction terms with
  | nil => exact ⟨[], rfl, rfl⟩
  | cons term rest ih =>
      cases term with
      | constant s v =>
          obtain ⟨entries, rfl, hplain⟩ := ih h
          exact ⟨.constant s v :: entries, rfl, congrArg _ hplain⟩
      | roll s count sides => cases h

/-! ## Without brackets -/

def isNoBracket (c : Char) : Bool := c ≠ '[' && c ≠ ']'

/-- **A text without its brackets.** -/
def unbracketed (s : String) : String := String.ofList (s.toList.filter isNoBracket)

lemma isNoBracket_char (s : Sign) : isNoBracket s.char = true := by
  cases s <;> decide

lemma filter_digits (n : Nat) : (Numeral.digits n).filter isNoBracket = Numeral.digits n := by
  rw [List.filter_eq_self]
  intro c hc
  have hdigit := Numeral.isDigit_of_mem_digits hc
  rw [isNoBracket, Bool.and_eq_true, decide_eq_true_eq, decide_eq_true_eq]
  constructor
  · rintro rfl
    cases hdigit
  · rintro rfl
    cases hdigit

/-- **Without brackets an entry is its constant in print.** -/
lemma filter_text (e : Entry) :
    e.text.toList.filter isNoBracket = e.constantTerm.text.toList := by
  rw [e.toList_text, List.filter_cons_of_pos (isNoBracket_char e.sign)]
  cases e with
  | constant s v => simp [Entry.sign, Entry.shown, Entry.constantTerm, filter_digits]
  | rolled s v =>
      have hopen : isNoBracket '[' = false := by decide
      have hclose : isNoBracket ']' = false := by decide
      simp [Entry.sign, Entry.shown, Entry.constantTerm, filter_digits, hopen, hclose]

lemma filter_inFull (entries : List Entry) :
    (inFull entries).filter isNoBracket =
      (entries.map Entry.constantTerm).flatMap fun t => t.text.toList := by
  rw [inFull, List.filter_flatMap, List.flatMap_map]
  simp only [filter_text]

/-- Brackets may be erased before the plus in front is dropped, since no bracket is in front. -/
lemma filter_dropPlus {cs : List Char} (h : ∀ c ∈ cs.head?, isNoBracket c = true) :
    (dropPlus cs).filter isNoBracket = dropPlus (cs.filter isNoBracket) := by
  cases cs with
  | nil => rfl
  | cons c cs =>
      have hc : isNoBracket c = true := h c rfl
      rw [List.filter_cons_of_pos hc]
      by_cases hplus : c = '+'
      · rw [hplus, dropPlus_plus, dropPlus_plus]
      · rw [dropPlus_of_ne hplus, dropPlus_of_ne hplus, List.filter_cons_of_pos hc]

/-- **The text of a trace without brackets is the print of its constants.** -/
theorem unbracketed_traceText (o : Outcome) :
    unbracketed o.traceText = printed (o.trace.map Entry.constantTerm) := by
  have hhead : ∀ c ∈ (inFull o.trace).head?, isNoBracket c = true := by
    intro c hc
    obtain ⟨s, rfl⟩ := head?_inFull o.trace c hc
    exact isNoBracket_char s
  rw [unbracketed, o.toList_traceText_eq_inFull, filter_dropPlus hhead, filter_inFull, printed]

/-- The trace of constants is that print as it is. -/
lemma traceText_map_plain (total : Int) (entries : List Entry) :
    (⟨total, entries.map Entry.plain⟩ : Outcome).traceText =
      printed (entries.map Entry.constantTerm) := by
  rw [Outcome.traceText, printed, List.flatMap_map, List.flatMap_map]
  simp only [Entry.text_plain]

/-! ## Constants added up -/

section Evaluating

variable {σ : Type} [RollSource σ]

/-- **A run through constants** enters them and does nothing else. -/
lemma Tally.run_constants (caps : Caps) (entries : List Entry) (t : Tally σ) :
    ∃ last, t.run caps (entries.map Entry.constantTerm) = (.ok (), last) ∧
      last.trace = t.trace ++ entries.map Entry.plain ∧ last.draws = t.draws ∧
        last.source = t.source := by
  induction entries generalizing t with
  | nil => exact ⟨t, rfl, by simp, rfl, rfl⟩
  | cons e entries ih =>
      have hsettle : (t.note (.attempting e.constantTerm)).settle caps e.constantTerm =
          (.ok (), (t.note (.attempting e.constantTerm)).enter [e.plain]) := by
        cases e <;> rfl
      obtain ⟨last, hrun, htrace, hdraws, hsource⟩ :=
        ih ((t.note (.attempting e.constantTerm)).enter [e.plain])
      refine ⟨last, ?_, ?_, hdraws, hsource⟩
      · rw [List.map_cons, run_cons_of_ok hsettle, hrun]
      · rw [htrace]
        simp

/-- **Constants come to their exact total**, under any caps and without a draw. -/
lemma evaluate_constants (caps : Caps) (entries : List Entry) (source : σ) :
    ∃ t : Tally σ, evaluate caps (entries.map Entry.constantTerm) source =
        (.ok ⟨exactTotal entries, entries.map Entry.plain⟩, t) ∧ t.draws = [] ∧
      t.source = source := by
  obtain ⟨t, hrun, htrace, hdraws, hsource⟩ :=
    Tally.run_constants caps entries ({ source := source } : Tally σ)
  have heval := evaluate_of_ok hrun
  have htotal : t.total = exactTotal entries := by
    have hbalanced : t.outcome.total = exactTotal t.outcome.trace :=
      evaluate_balanced (congrArg Prod.fst heval)
    rw [← exactTotal_map_plain, ← List.nil_append (entries.map Entry.plain)]
    exact hbalanced.trans (congrArg exactTotal htrace)
  refine ⟨t, ?_, hdraws, hsource⟩
  rw [heval, Tally.outcome, htotal, htrace]
  rfl

end Evaluating

/-! ## Traces that prove a total -/

/-- **The trace of an outcome proves its total**: without brackets it is read as one constant for
each entry, in order and with the sign and the value of the entry, whatever the cap on terms, if
there is room for them; and rolled under any caps and from any source these constants come to the
same total, without a draw. -/
structure Outcome.Provable (o : Outcome) : Prop where
  reads : ∀ max : Nat, o.trace.length ≤ max →
    readTerms max (unbracketed o.traceText) = .ok (o.trace.map Entry.constantTerm)
  adds_up : ∀ (caps : Caps) (τ : Type) [RollSource τ] (source : τ),
    (evaluate caps (o.trace.map Entry.constantTerm) source).1 =
        .ok ⟨o.total, o.trace.map Entry.plain⟩ ∧
      (evaluate caps (o.trace.map Entry.constantTerm) source).2.draws = [] ∧
        (evaluate caps (o.trace.map Entry.constantTerm) source).2.source = source

lemma Outcome.provable_of_balanced {o : Outcome} (hne : o.trace ≠ [])
    (htotal : o.total = exactTotal o.trace) : o.Provable where
  reads max hmax := by
    rw [unbracketed_traceText]
    refine readTerms_printed ?_ ?_
    · simpa using hne
    · rw [List.length_map]
      exact hmax
  adds_up caps τ _ source := by
    obtain ⟨t, heval, hdraws, hsource⟩ := evaluate_constants caps o.trace source
    rw [heval, htotal]
    exact ⟨rfl, hdraws, hsource⟩

/-! ## Formulas of constants -/

/-- **A formula that has been read** is within the caps, and but for its blanks it is a wording of
its terms. -/
lemma Formula.exists_wording_of_read {caps : Caps} {formula : String} {terms : List Term}
    (h : Formula.read caps formula = .ok terms) :
    ∃ w : Wording, (Formula.strip formula).toList = w.chars ∧ w.terms = terms ∧
      formula.length ≤ caps.length.toNat ∧ terms.length ≤ caps.terms.toNat := by
  rw [Formula.read] at h
  cases hscreen : Formula.screen caps formula with
  | error why =>
      rw [hscreen] at h
      cases h
  | ok stripped =>
      obtain ⟨-, hlength, -, rfl⟩ := Formula.screen_eq_ok_iff.mp hscreen
      rw [hscreen] at h
      simp only at h
      cases hread : readTerms caps.terms.toNat (Formula.strip formula) with
      | error why =>
          rw [hread] at h
          cases h
      | ok terms' =>
          rw [hread] at h
          obtain rfl : terms' = terms := Except.ok.inj h
          obtain ⟨w, hw, -, hcap, rfl⟩ := exists_wording_of_readTerms hread
          refine ⟨w, hw, rfl, hlength, ?_⟩
          rw [Wording.terms, List.length_map]
          exact hcap

lemma Wording.bareRolls_eq_zero {w : Wording} (h : rolls w.terms = []) : w.bareRolls = 0 := by
  rw [Wording.bareRolls, List.countP_eq_zero]
  intro x hx hbare
  have hnone := List.filterMap_eq_nil_iff.mp h x.term (List.mem_map_of_mem hx)
  rcases x with ⟨s, value | ⟨_ | count, sides⟩⟩
  · cases hbare
  · cases hnone
  · cases hbare

/-- **The print of constants is no longer than the formula that they were read from.** -/
lemma Formula.length_printed_le {caps : Caps} {formula : String} {terms : List Term}
    (h : Formula.read caps formula = .ok terms) (hrolls : rolls terms = []) :
    (printed terms).length ≤ formula.length := by
  obtain ⟨w, hw, rfl, -, -⟩ := Formula.exists_wording_of_read h
  have hprinted := w.length_printed_terms_le
  have hstrip : w.chars.length ≤ formula.length := by
    rw [← hw, Formula.toList_strip, ← String.length_toList]
    exact List.length_filter_le _ _
  rw [Wording.bareRolls_eq_zero hrolls] at hprinted
  omega

/-- **The trace of constants is a formula of its own**: within the same caps it is rolled to the
same outcome, from any source. -/
lemma attempt_constants {caps : Caps} {formula : String} {terms : List Term}
    (h : Formula.read caps formula = .ok terms) (hrolls : rolls terms = []) :
    ∃ o : Outcome, o.traceText.length ≤ formula.length ∧
      ∀ (τ : Type) [RollSource τ] (source : τ), ∀ text ∈ [formula, o.traceText],
        (attempt caps text source).result = .ok o ∧ (attempt caps text source).draws = [] ∧
          (attempt caps text source).source = source := by
  obtain ⟨entries, rfl, hplain⟩ := exists_entries_of_rolls_eq_nil hrolls
  have htext := traceText_map_plain (exactTotal entries) entries
  rw [hplain] at htext
  have hlength := Formula.length_printed_le h hrolls
  have hread : Formula.read caps (printed (entries.map Entry.constantTerm)) =
      .ok (entries.map Entry.constantTerm) := by
    obtain ⟨w, -, hw, hcap, hterms⟩ := Formula.exists_wording_of_read h
    have hne : entries.map Entry.constantTerm ≠ [] := by
      rw [← hw]
      simp [Wording.terms, Wording.summands]
    exact Formula.read_printed hne hterms (hlength.trans hcap)
  refine ⟨⟨exactTotal entries, entries⟩, ?_, ?_⟩
  · rw [htext]
    exact hlength
  · intro τ _ source text htexts
    have hterms : Formula.read caps text = .ok (entries.map Entry.constantTerm) := by
      rw [htext] at htexts
      rcases List.mem_pair.mp htexts with rfl | rfl
      · exact h
      · exact hread
    obtain ⟨t, heval, hdraws, hsource⟩ := evaluate_constants caps entries source
    rw [attempt_of_ok hterms, heval, hplain]
    exact ⟨rfl, hdraws, hsource⟩

/-! ## Both -/

/-- **The trace proves the total.**  If terms are rolled, and there is anything in the trace, the
text of the trace without its brackets is read as constants that come to the same total, and for
these nothing has to be drawn.  If a formula has constants only, it is rolled from any source, the
text of its trace is no longer than the formula, and that text is rolled within the same caps to
the same outcome. -/
theorem trace_proves_total (caps : Caps) :
    (∀ (σ : Type) [RollSource σ] (source : σ) (terms : List Term) (o : Outcome),
      (evaluate caps terms source).1 = .ok o → o.trace ≠ [] → o.Provable) ∧
    ∀ (formula : String) (terms : List Term), Formula.read caps formula = .ok terms →
      rolls terms = [] →
        ∃ o : Outcome, o.traceText.length ≤ formula.length ∧
          ∀ (τ : Type) [RollSource τ] (source : τ), ∀ text ∈ [formula, o.traceText],
            (attempt caps text source).result = .ok o ∧ (attempt caps text source).draws = [] ∧
              (attempt caps text source).source = source := by
  refine ⟨?_, fun _ _ => attempt_constants⟩
  intro σ _ source terms o h hne
  exact Outcome.provable_of_balanced hne (evaluate_balanced h)

/-- Two cabbages below zero and a zero, and a formula with leading zeros and blanks. -/
theorem trace_proves_minus_seven :
    Outcome.Provable ⟨-7, [.rolled .minus 3, .rolled .minus 4, .constant .plus 0]⟩ ∧
      ∃ o : Outcome, o.traceText.length ≤ "007 - 2".length ∧
        ∀ (τ : Type) [RollSource τ] (source : τ), ∀ text ∈ ["007 - 2", o.traceText],
          (attempt {} text source).result = .ok o ∧ (attempt {} text source).draws = [] ∧
            (attempt {} text source).source = source :=
  ⟨(trace_proves_total {}).1 Script ⟨[[3, 4]]⟩ [.roll .minus 2 6, .constant .plus 0] _
      (by decide) (by decide),
    (trace_proves_total {}).2 "007 - 2" [.constant .plus 7, .constant .minus 2]
      (by decide +kernel) (by decide)⟩

end CabbageFormula
