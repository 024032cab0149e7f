import CabbageFormula.Proofs.Traces
import CabbageFormula.Session

/-!
# What a reply tells

A reply is all that is seen of a formula, and it is enough.  From the reply to a formula that was
rolled the total and the trace can be read off, and from any other reply the kind of fault.

* `Outcome.text_eq_iff` — the total ends at the first space, and the trace is in the parentheses.
* `Kind`, `Rejection.message_eq_iff` — the nine kinds of fault, each with a message of its own;
  one character of it, `Kind.mark`, is enough to tell them apart.
* `OpensWithNumber`, `Outcome.opensWithNumber_text`, `Rejection.not_opensWithNumber_message` — an
  outcome begins as a number does, and no message does.
* `Alike` — results that are the same outcome, or faults of the same kind.
* `reply_tells_result` — replies are the same exactly if the results are alike.
-/

namespace CabbageFormula

/-! ## Outcomes -/

namespace Outcome

/-- A total is written as its digits, with a minus in front if it is negative. -/
lemma toList_toString_total (total : Int) :
    (toString total).toList =
      (if 0 ≤ total then [] else ['-']) ++ Numeral.digits total.natAbs := by
  rw [Int.toString_eq_repr, Int.repr_eq_if]
  split
  case isTrue h =>
    have habs : total.toNat = total.natAbs := by omega
    rw [Nat.toList_repr, habs]
    rfl
  case isFalse h =>
    have habs : (-total).toNat = total.natAbs := by omega
    rw [String.toList_append, Nat.toList_repr, habs]
    rfl

lemma mem_toString_total {total : Int} {c : Char} (h : c ∈ (toString total).toList) :
    c = '-' ∨ c.isDigit = true := by
  rw [toList_toString_total] at h
  rcases List.mem_append.mp h with h | h
  · split at h
    · cases h
    · exact Or.inl (List.mem_singleton.mp h)
  · exact Or.inr (Numeral.isDigit_of_mem_digits h)

lemma toString_total_injective {m n : Int} (h : (toString m).toList = (toString n).toList) :
    m = n := by
  rw [toList_toString_total, toList_toString_total] at h
  have hminus : '-'.isDigit = false := by decide
  split at h <;> split at h
  · have habs := Numeral.digits_injective h
    omega
  · exact absurd h (by simpa using Numeral.digits_append_ne_cons hminus m.natAbs [] _)
  · exact absurd h.symm (by simpa using Numeral.digits_append_ne_cons hminus n.natAbs [] _)
  · have habs := Numeral.digits_injective (List.append_cancel_left h)
    omega

lemma toList_text (o : Outcome) :
    o.text.toList = (toString o.total).toList ++ ' ' :: '(' :: (o.traceText.toList ++ [')']) := by
  simp [text]

/-- **An outcome can be told from its text.** -/
theorem text_eq_iff {o o' : Outcome} :
    o.text = o'.text ↔ o.total = o'.total ∧ o.trace = o'.trace := by
  constructor
  · intro h
    have hchars := congrArg String.toList h
    rw [toList_text, toList_text] at hchars
    -- the total has no space, so it ends at the first
    have hspace : ∀ total : Int, ∀ c ∈ (toString total).toList, (c != ' ') = true := by
      intro total c hc
      rcases mem_toString_total hc with rfl | hdigit
      · rfl
      · rw [bne_iff_ne]
        rintro rfl
        cases hdigit
    obtain ⟨htotal, hrest⟩ :=
      append_inj_of_run (hspace o.total) (hspace o'.total) (by simp) (by simp) hchars
    have htrace : o.traceText.toList = o'.traceText.toList := by simpa using hrest
    refine ⟨toString_total_injective htotal, ?_⟩
    exact traceText_eq_iff.mp (String.toList_inj.mp htrace)
  · rintro ⟨htotal, htrace⟩
    rw [text, text, htotal, traceText_eq_iff.mpr htrace]

end Outcome

/-! ## Rejections -/

/-- **The kinds of fault**, without their figures. -/
inductive Kind where
  | empty
  | dice
  | lengthCap
  | unexpected
  | termCap
  | rollCap
  | noSides
  | sideCap
  | noRolls
deriving DecidableEq

namespace Kind

/-- The character that the messages of a kind begin with. -/
def initial : Kind → Char
  | empty => 'N'
  | dice => 'P'
  | lengthCap => 'C'
  | unexpected => 'P'
  | termCap => 'T'
  | rollCap => 'I'
  | noSides => 'I'
  | sideCap => 'N'
  | noRolls => 'H'

lemma initial_letter (k : Kind) : ¬ (k.initial = '-' ∨ k.initial.isDigit = true) := by
  cases k <;> decide

/-- The character that the messages of a kind have at place 20.  It is another for each kind. -/
def mark : Kind → Char
  | empty => 'I'
  | dice => 'S'
  | lengthCap => 'L'
  | unexpected => ' '
  | termCap => 'B'
  | rollCap => 'N'
  | noSides => 'A'
  | sideCap => 'M'
  | noRolls => 'G'

lemma mark_injective : Function.Injective mark := by
  intro k k' h
  cases k <;> cases k' <;> first | rfl | exact absurd h (by decide)

end Kind

namespace Rejection

/-- The kind of a rejection. -/
def kind : Rejection → Kind
  | screen .empty => .empty
  | screen .dice => .dice
  | screen (.lengthCap ..) => .lengthCap
  | read (.unexpected ..) => .unexpected
  | read (.termCap _) => .termCap
  | roll (.rollCap _) => .rollCap
  | roll .noSides => .noSides
  | roll (.sideCap ..) => .sideCap
  | roll .noRolls => .noRolls

lemma marks_message (why : Rejection) :
    why.message.toList.head? = some why.kind.initial ∧
      why.message.toList[20]? = some why.kind.mark := by
  cases why with
  | screen why =>
      unfold message ScreenFault.message
      cases why with
      | dice =>
          -- the one message that is put together from two texts
          dsimp only
          rw [String.toList_append]
          simp [kind, Kind.initial, Kind.mark]
      | empty | lengthCap => simp [kind, Kind.initial, Kind.mark]
  | read why =>
      unfold message ReadFault.message
      cases why <;> simp [kind, Kind.initial, Kind.mark]
  | roll why =>
      unfold message RollFault.message
      cases why <;> simp [kind, Kind.initial, Kind.mark]

/-- **Each kind has a message of its own.** -/
theorem message_eq_iff {why why' : Rejection} :
    why.message = why'.message ↔ why.kind = why'.kind := by
  constructor
  · intro h
    have hmark := (marks_message why).2
    rw [h, (marks_message why').2, Option.some.injEq] at hmark
    exact Kind.mark_injective hmark.symm
  · intro h
    rcases why with (_ | _ | _) | (_ | _) | (_ | _ | _ | _) <;>
      rcases why' with (_ | _ | _) | (_ | _) | (_ | _ | _ | _) <;>
        first | rfl | cases h

end Rejection

/-! ## How a reply begins -/

/-- **A text that begins as a number does**: with a minus or a digit. -/
def OpensWithNumber (s : String) : Prop :=
  ∃ c ∈ s.toList.head?, c = '-' ∨ c.isDigit = true

lemma Outcome.opensWithNumber_text (o : Outcome) : OpensWithNumber o.text := by
  have hne : (toString o.total).toList ≠ [] := by
    rw [Int.toString_eq_repr, Int.repr_eq_if]
    split <;> simp [Nat.toList_repr]
  obtain ⟨c, cs, hcs⟩ := List.exists_cons_of_ne_nil hne
  have hc : c ∈ (toString o.total).toList := by
    rw [hcs]
    exact List.mem_cons_self
  refine ⟨c, ?_, mem_toString_total hc⟩
  rw [toList_text, hcs]
  rfl

lemma Rejection.not_opensWithNumber_message (why : Rejection) :
    ¬ OpensWithNumber why.message := by
  rintro ⟨c, hc, hnumber⟩
  rw [(marks_message why).1, Option.mem_some_iff] at hc
  rw [← hc] at hnumber
  exact why.kind.initial_letter hnumber

/-! ## Replies -/

/-- **Results that are alike**: the same outcome, or faults of the same kind. -/
inductive Alike : Except Rejection Outcome → Except Rejection Outcome → Prop where
  | outcome (o : Outcome) : Alike (.ok o) (.ok o)
  | fault {why why' : Rejection} (h : why.kind = why'.kind) : Alike (.error why) (.error why')

lemma opensWithNumber_replyTo_iff {result : Except Rejection Outcome} :
    OpensWithNumber (replyTo result) ↔ ∃ o, result = .ok o := by
  cases result with
  | ok o => exact iff_of_true o.opensWithNumber_text ⟨o, rfl⟩
  | error why => exact iff_of_false why.not_opensWithNumber_message (by simp)

lemma replyTo_eq_iff {result result' : Except Rejection Outcome} :
    replyTo result = replyTo result' ↔ Alike result result' := by
  constructor
  · intro h
    -- an outcome and a message differ in how they begin
    have hopens : (∃ o, result = .ok o) ↔ ∃ o, result' = .ok o := by
      rw [← opensWithNumber_replyTo_iff, h, opensWithNumber_replyTo_iff]
    cases result with
    | ok o =>
        obtain ⟨o', rfl⟩ := hopens.mp ⟨o, rfl⟩
        obtain ⟨htotal, htrace⟩ := Outcome.text_eq_iff.mp h
        obtain ⟨total, trace⟩ := o
        obtain ⟨total', trace'⟩ := o'
        obtain rfl : total = total' := htotal
        obtain rfl : trace = trace' := htrace
        exact .outcome _
    | error why =>
        cases result' with
        | ok o' => exact absurd (hopens.mpr ⟨o', rfl⟩) (by simp)
        | error why' => exact .fault (Rejection.message_eq_iff.mp h)
  · rintro (o | h)
    · rfl
    · exact Rejection.message_eq_iff.mpr h

/-- **A reply tells the result.**  Outcomes have the same text exactly if they have the same total
and the same trace, whether or not the total is that of the trace; the text of a trace tells the
trace, and it never begins with a plus.  The reply to a formula begins as a number does exactly if
the formula was rolled.  So the replies to two formulas, under any caps and from any sources, are
the same exactly if both formulas came to the same outcome, or if both were turned down for a fault
of the same kind. -/
theorem reply_tells_result :
    (∀ o o' : Outcome, o.text = o'.text ↔ o.total = o'.total ∧ o.trace = o'.trace) ∧
    (∀ o o' : Outcome, o.traceText = o'.traceText ↔ o.trace = o'.trace) ∧
    (∀ o : Outcome, o.traceText.toList.head? ≠ some '+') ∧
    ∀ (σ : Type) [RollSource σ] (caps : Caps) (formula : String) (source : σ),
      (OpensWithNumber (attempt caps formula source).reply ↔
        ∃ o, (attempt caps formula source).result = .ok o) ∧
      ∀ (τ : Type) [RollSource τ] (caps' : Caps) (formula' : String) (source' : τ),
        (attempt caps formula source).reply = (attempt caps' formula' source').reply ↔
          Alike (attempt caps formula source).result (attempt caps' formula' source').result := by
  refine ⟨fun o o' => Outcome.text_eq_iff, fun o o' => Outcome.traceText_eq_iff, ?_, ?_⟩
  · intro o h
    have hplus := o.head?_traceText '+' h
    simp at hplus
  · intro σ _ caps formula source
    exact ⟨opensWithNumber_replyTo_iff, fun τ _ caps' formula' source' => replyTo_eq_iff⟩

end CabbageFormula
