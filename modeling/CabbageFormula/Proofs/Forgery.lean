import CabbageFormula.Console
import CabbageFormula.Proofs.Quoting
import CabbageFormula.Proofs.Records
import CabbageFormula.Proofs.Replies

/-!
# Records that cannot be forged

A formula is any text, and its verdict shows it: the formula itself, the place where reading
stopped, and that place once more in the fault.  All of it is quoted, so whatever the formula, a
record is one line, and what stands in its quotes was a formula and nothing else.

* `Plain`, `Event.plain_record` — every record shows in full, so it has no line end.
* `splitOn_join_lines` — plain texts on lines of their own are told apart by the line ends.
* `verdictWord`, `exists_message_verdict` — the message of a verdict up to the quoted formula.
* `verdict_record_inj` — **a verdict tells its formula**, and whether that was rolled.
* `Unforgeable`, `records_unforgeable` — what holds of the records, whatever the formulas.
-/

namespace CabbageFormula

/-! ## Plain texts -/

/-- **A text is plain** if all of it shows.  It has no control character then, and no line end. -/
def Plain (s : String) : Prop := ∀ c ∈ s.toList, Text.Shows c

instance : DecidablePred Plain := fun s => List.decidableBAll Text.Shows s.toList

@[simp] lemma plain_append {s t : String} : Plain (s ++ t) ↔ Plain s ∧ Plain t := by
  simp only [Plain, String.toList_append, List.forall_mem_append]

@[simp] lemma plain_quote (s : String) : Plain (Text.quote s) := by
  intro c hc
  rw [Text.toList_quote] at hc
  exact Text.shows_of_mem_quoteChars hc

@[simp] lemma plain_nat (n : Nat) : Plain (toString n) := by
  intro c hc
  rw [Numeral.toList_toString_nat] at hc
  exact Text.shows_of_isDigit (Numeral.isDigit_of_mem_digits hc)

@[simp] lemma plain_word (n : UInt64) : Plain (toString n) := by
  intro c hc
  rw [Numeral.toList_toString_word] at hc
  exact Text.shows_of_isDigit (Numeral.isDigit_of_mem_digits hc)

@[simp] lemma plain_total (n : Int) : Plain (toString n) := by
  intro c hc
  rcases Outcome.mem_toString_total hc with rfl | hdigit
  · decide
  · exact Text.shows_of_isDigit hdigit

@[simp] lemma Sign.plain_text (s : Sign) : Plain s.text := by
  cases s <;> decide

@[simp] lemma Term.plain_text (term : Term) : Plain term.text := by
  cases term with
  | constant s v => exact plain_append.mpr ⟨s.plain_text, plain_word v⟩
  | roll s count sides =>
      simp only [text, plain_append, Sign.plain_text, plain_word, true_and, and_true]
      decide

@[simp] lemma Entry.plain_text (e : Entry) : Plain e.text := by
  cases e with
  | constant s v => exact plain_append.mpr ⟨s.plain_text, plain_word v⟩
  | rolled s v =>
      simp only [text, plain_append, Sign.plain_text, plain_word, true_and, and_true]
      decide

lemma mem_of_mem_dropPlus {cs : List Char} {c : Char} (h : c ∈ dropPlus cs) : c ∈ cs := by
  unfold dropPlus at h
  split at h
  case h_1 => exact List.mem_cons_of_mem _ h
  case h_2 => exact h

@[simp] lemma Outcome.plain_traceText (o : Outcome) : Plain o.traceText := by
  intro c hc
  rw [toList_traceText] at hc
  obtain ⟨e, -, he⟩ := List.mem_flatMap.mp (mem_of_mem_dropPlus hc)
  exact e.plain_text c he

@[simp] lemma Outcome.plain_text (o : Outcome) : Plain o.text := by
  simp only [text, plain_append, plain_total, plain_traceText, true_and, and_true]
  decide

@[simp] lemma Place.plain_text (p : Place) : Plain p.text := by
  rw [text]
  split <;> simp only [plain_append, plain_nat, plain_quote, true_and, and_true] <;> decide +kernel

@[simp] lemma Place.plain_detail (p : Place) : Plain p.detail := by
  show Plain (_ ++ toString p.start ++ _ ++ toString p.stop ++ _ ++ Text.quote p.slice ++ _)
  simp only [plain_append, plain_nat, plain_quote, and_true]
  decide +kernel

@[simp] lemma Token.plain_detail (t : Token) : Plain t.detail := by
  rcases t with (_ | n) | _ | (_ | _) | _
  case number.some =>
    show Plain (_ ++ toString n ++ _)
    simp only [plain_append, plain_word, and_true]
    decide +kernel
  all_goals decide

lemma ScreenFault.plain_detail (why : ScreenFault) : Plain why.detail := by
  cases why with
  | empty | dice => decide
  | lengthCap length max =>
      show Plain (_ ++ toString length ++ _ ++ toString max ++ _)
      simp only [plain_append, plain_nat, plain_word, and_true]
      decide +kernel

lemma ReadFault.plain_detail (why : ReadFault) : Plain why.detail := by
  cases why with
  | unexpected found place =>
      show Plain (_ ++ place.detail ++ _ ++ found.detail ++ _)
      simp only [plain_append, Place.plain_detail, Token.plain_detail, and_true]
      decide +kernel
  | termCap max =>
      show Plain (_ ++ toString max ++ _)
      simp only [plain_append, plain_nat, and_true]
      decide +kernel

lemma RollFault.plain_detail (why : RollFault) : Plain why.detail := by
  cases why with
  | noSides | noRolls => decide
  | rollCap max =>
      show Plain (_ ++ toString max ++ _)
      simp only [plain_append, plain_word, and_true]
      decide +kernel
  | sideCap sides max =>
      show Plain (_ ++ toString sides ++ _ ++ toString max ++ _)
      simp only [plain_append, plain_word, and_true]
      decide +kernel

@[simp] lemma Rejection.plain_detail (why : Rejection) : Plain why.detail := by
  cases why with
  | screen why => exact why.plain_detail
  | read why => exact why.plain_detail
  | roll why =>
      simp only [detail, plain_append, why.plain_detail, and_true]
      decide

lemma Event.plain_message (e : Event) : Plain e.message := by
  cases e with
  | attempting term =>
      simp only [message, plain_append, Term.plain_text, and_true]
      decide
  | rolled s v =>
      simp only [message, plain_append, Entry.plain_text, and_true]
      decide
  | accepted formula o =>
      simp only [message, plain_append, plain_quote, Outcome.plain_text, and_true]
      decide
  | rejected formula why =>
      rw [message]
      split
      case h_1 =>
        simp only [plain_append, plain_quote, Place.plain_text, Rejection.plain_detail, and_true]
        decide
      case h_2 =>
        simp only [plain_append, plain_quote, Rejection.plain_detail, and_true]
        decide

/-- **Every record is plain**, whatever was quoted in it. -/
lemma Event.plain_record (e : Event) : Plain e.record := by
  have hname : ∀ l : Level, Plain l.name := by rintro (_ | _ | _ | _ | _) <;> decide
  have htargets : Plain "cabbage_roll::roll::ctx" ∧ Plain "cabbage_roll::evaluator" := by
    decide +kernel
  have htarget : Plain e.target := by
    cases e with
    | attempting | rolled => exact htargets.1
    | accepted | rejected => exact htargets.2
  simp only [record, plain_append, hname, htarget, e.plain_message, and_true]
  decide

lemma plain_of_mem_records {t : Threshold} {events : List Event} {record : String}
    (h : record ∈ records t events) : Plain record := by
  obtain ⟨e, -, rfl⟩ := List.mem_map.mp h
  exact e.plain_record

/-! ## Lines -/

lemma Plain.newline_notMem {s : String} (h : Plain s) : ∀ c ∈ s.toList, (c == '\n') = false := by
  intro c hc
  rw [beq_eq_false_iff_ne]
  rintro rfl
  exact absurd (h '\n' hc) (by decide)

/-- **Plain texts on lines of their own** are told apart by the line ends. -/
lemma splitOn_join_lines {texts : List String} (h : ∀ text ∈ texts, Plain text) :
    (String.join (texts.map (· ++ "\n"))).toList.splitOn '\n' =
      texts.map String.toList ++ [[]] := by
  induction texts with
  | nil => rfl
  | cons text rest ih =>
      obtain ⟨htext, hrest⟩ := List.forall_mem_cons.mp h
      rw [List.map_cons, String.join_cons, String.toList_append, String.toList_append,
        List.append_assoc, List.splitOn]
      show List.splitOnP (· == '\n') (text.toList ++ '\n' :: _) = _
      rw [List.splitOnP_append_cons_of_forall_mem htext.newline_notMem '\n' (beq_self_eq_true _)]
      exact congrArg (text.toList :: ·) (ih hrest)

/-! ## Verdicts -/

/-- The word that a verdict begins with. -/
def verdictWord : Except Rejection Outcome → String
  | .ok _ => "rolled "
  | .error _ => "rejected "

/-- The message of a verdict: the word, the quoted formula, and the rest. -/
lemma exists_message_verdict (formula : String) (result : Except Rejection Outcome) :
    ∃ rest, (Event.verdict formula result).message.toList =
      (verdictWord result).toList ++ (Text.quoteChars formula.toList ++ rest) := by
  cases result with
  | ok o =>
      refine ⟨(": " ++ o.text).toList, ?_⟩
      simp only [Event.verdict, Event.message, verdictWord, String.toList_append, Text.toList_quote,
        List.append_assoc]
  | error why =>
      rw [Event.verdict, Event.message]
      split
      case h_1 place _ =>
        refine ⟨(" at " ++ place.text ++ ": " ++ why.detail).toList, ?_⟩
        simp only [verdictWord, String.toList_append, Text.toList_quote, List.append_assoc]
      case h_2 =>
        refine ⟨(": " ++ why.detail).toList, ?_⟩
        simp only [verdictWord, String.toList_append, Text.toList_quote, List.append_assoc]

/-- The words of verdicts are not alike. -/
lemma verdictWord_append_inj {result result' : Except Rejection Outcome} {as bs : List Char}
    (h : (verdictWord result).toList ++ as = (verdictWord result').toList ++ bs) :
    result.isOk = result'.isOk ∧ as = bs := by
  cases result <;> cases result' <;> simp_all [verdictWord, Except.isOk, Except.toBool]

/-- **A verdict tells its formula**, and whether that was rolled. -/
lemma verdict_record_inj {formula formula' : String} {result result' : Except Rejection Outcome}
    (h : (Event.verdict formula result).record = (Event.verdict formula' result').record) :
    formula = formula' ∧ result.isOk = result'.isOk := by
  obtain ⟨rest, hrest⟩ := exists_message_verdict formula result
  obtain ⟨rest', hrest'⟩ := exists_message_verdict formula' result'
  rw [record_verdict, record_verdict, ← String.toList_inj, String.toList_append,
    String.toList_append, List.append_cancel_left_eq, hrest, hrest'] at h
  obtain ⟨hword, hquoted⟩ := verdictWord_append_inj h
  exact ⟨String.toList_inj.mp (Text.quoteChars_append_inj hquoted).1, hword⟩

section Records

variable {σ : Type} [RollSource σ]

/-- Where verdicts are kept, the verdict is the last record. -/
lemma getLast?_records {t : Threshold} (h : t.keeps .debug = true) (caps : Caps) (formula : String)
    (source : σ) :
    (records t ((attempt caps formula source).journal formula)).getLast? =
      some (Event.verdict formula (attempt caps formula source).result).record := by
  have hlevel : ∀ result, (Event.verdict formula result).level = .debug := by
    rintro (_ | _) <;> rfl
  have hkept : records t [Event.verdict formula (attempt caps formula source).result] =
      [(Event.verdict formula (attempt caps formula source).result).record] := by
    rw [records, List.filter_singleton, hlevel, h]
    rfl
  rw [Attempt.journal, records_append, hkept, List.getLast?_concat]

/-- **Records that no formula can forge.** -/
structure Unforgeable (σ : Type) [RollSource σ] : Prop where
  /-- No record of a formula has a control character, or anything else that does not show. -/
  plain : ∀ (caps : Caps) (formula : String) (source : σ) (threshold : Threshold),
    ∀ record ∈ records threshold ((attempt caps formula source).journal formula),
      ∀ c ∈ record.toList, Text.isControl c = false ∧ Text.isHidden c = false
  /-- What is written beside the output of a dialogue has a line for each record and one for the
  complaint, if there is one, and no other lines. -/
  lines : ∀ (bytes : List UInt8) (s : Session σ) (threshold : Threshold),
    ((Console.converse bytes s).diagnostics threshold).toList.splitOn '\n' =
      (records threshold (Console.converse bytes s).events ++
        if (Console.converse bytes s).failed then [Console.brokenText] else []).map String.toList ++
          [[]]
  /-- Where verdicts are kept, the verdict is the last record of a formula. -/
  last : ∀ (caps : Caps) (formula : String) (source : σ) (threshold : Threshold),
    threshold.keeps .debug = true →
      (records threshold ((attempt caps formula source).journal formula)).getLast? =
        some (Event.verdict formula (attempt caps formula source).result).record
  /-- That record tells the formula, and whether it was rolled: if the last records of two formulas
  are equal, under whatever caps and from whatever sources, so are the formulas. -/
  tells : ∀ {τ : Type} [RollSource τ] (caps caps' : Caps) (formula formula' : String) (source : σ)
    (source' : τ) (threshold threshold' : Threshold),
    threshold.keeps .debug = true → threshold'.keeps .debug = true →
      (records threshold ((attempt caps formula source).journal formula)).getLast? =
          (records threshold' ((attempt caps' formula' source').journal formula')).getLast? →
        formula = formula' ∧
          (attempt caps formula source).result.isOk = (attempt caps' formula' source').result.isOk
  /-- What was rolled, a formula or a cabbage, has no record in common with what was rejected. -/
  distinct : ∀ (formula formula' : String) (o : Outcome) (s : Sign) (v : UInt64) (why : Rejection),
    (Event.accepted formula o).record ≠ (Event.rejected formula' why).record ∧
      (Event.rolled s v).record ≠ (Event.rejected formula' why).record

/-- **No formula can forge a record**, under any caps, from any source and at any threshold. -/
theorem records_unforgeable : Unforgeable σ where
  plain caps formula source threshold record hrecord := plain_of_mem_records hrecord
  lines bytes s threshold := by
    refine splitOn_join_lines fun text htext => ?_
    rcases List.mem_append.mp htext with h | h
    · exact plain_of_mem_records h
    · split at h
      case isTrue =>
        obtain rfl := List.mem_singleton.mp h
        decide +kernel
      case isFalse => cases h
  last caps formula source threshold h := getLast?_records h caps formula source
  tells caps caps' formula formula' source source' threshold threshold' h h' hlast := by
    rw [getLast?_records h, getLast?_records h', Option.some.injEq] at hlast
    exact verdict_record_inj hlast
  distinct formula formula' o s v why := by
    constructor
    · intro h
      have hverdicts := @verdict_record_inj formula formula' (.ok o) (.error why) h
      cases hverdicts.2
    · intro h
      have hlevels := congrArg levelOf? h
      rw [levelOf?_record, levelOf?_record] at hlevels
      cases hlevels

end Records

/-- A formula that looks like a line end with a record behind it. -/
theorem records_unforgeable_line_end :
    let forged := "1\n[DEBUG] cabbage_roll::evaluator: rolled \"6\": 6 (6)"
    let record := "[DEBUG] cabbage_roll::evaluator: rejected " ++
      "\"1\\n[DEBUG] cabbage_roll::evaluator: rolled \\\"6\\\": 6 (6)\" at \"[\" at position 1: " ++
      "InvalidFormula \x7b pos: SourcePosition \x7b span: 1..2, slice: \"[\" \x7d, " ++
      "found: Error \x7d"
    records (some .trace) ((attempt {} forged (⟨[]⟩ : Script)).journal forged) = [record] ∧
      '\n' ∉ record.toList := by
  intro forged record
  have hrecords : records (some .trace) ((attempt {} forged (⟨[]⟩ : Script)).journal forged) =
      [record] := by decide +kernel
  refine ⟨hrecords, fun h => ?_⟩
  have hplain := records_unforgeable.plain {} forged (⟨[]⟩ : Script) (some .trace) record
    (hrecords ▸ List.mem_singleton_self record) '\n' h
  exact absurd hplain.1 (by decide)

end CabbageFormula
