import CabbageFormula.Proofs.Refusals

/-!
# Texts that can be completed

A text that is not a sum of terms may still become one when more is written behind it.  Reading
notices at the first character behind which that is no longer so: up to there the text can be
completed, and with that character it cannot.  A text that is refused at its end is only not yet
complete.

* `Accepted`, `Viable` — texts that are read under some cap, and those that can be completed to one.
* `Awaiting.completion` — what completes a text, by what is awaited at its end.
* `viable_of_moves` — a text over which moves can be made is viable.
* `not_accepted_of_refused` — a text with a refused token in it is not accepted.
* `unexpected_earliest` — **a fault points at the earliest place there is**.
-/

namespace CabbageFormula

/-- **A text that is accepted**, under some cap on terms. -/
def Accepted (s : String) : Prop := ∃ max terms, readTerms max s = .ok terms

/-- **A text that can be completed**: with something behind it, or nothing, it is accepted. -/
def Viable (s : String) : Prop := ∃ rest, Accepted (s ++ rest)

lemma accepted_iff {s : String} :
    Accepted s ↔ (∀ c ∈ s.toList, isAscii c = true) ∧
      ∃ max r, Moves max Reading.start (framedTokens s.toList) r := by
  constructor
  · rintro ⟨max, terms, h⟩
    obtain ⟨hascii, r, hmoves, -⟩ := readTerms_eq_ok_iff_moves.mp h
    exact ⟨hascii, max, r, hmoves⟩
  · rintro ⟨hascii, max, r, hmoves⟩
    exact ⟨max, r.terms, readTerms_eq_ok_iff_moves.mpr ⟨hascii, r, hmoves, rfl⟩⟩

variable {max : Nat} {mid : Reading} {cs : List Char}

/-! ## Completing a text -/

/-- **What completes a text** behind which something is awaited.  A roll of one cabbage with one
side serves both for a term that has not begun and for one that may be a count. -/
def Awaiting.completion : Awaiting → List Char
  | .sign => []
  | .operand _ => ['c', '1']
  | .mark .. => ['c', '1']
  | .sides .. => ['1']

lemma tokens_mark_one : tokens ['c', '1'] = [.cabbage, .number (some 1)] := by decide

lemma tokens_one : tokens ['1'] = [.number (some 1)] := by decide

/-- A completion and the plus at the end can be read. -/
lemma exists_moves_completion (mid : Reading) (room : mid.terms.length < max) :
    ∃ r, Moves max mid (tokens mid.awaiting.completion ++ [.sign .plus]) r := by
  obtain ⟨a, ts⟩ := mid
  cases a with
  | sign => exact ⟨_, .singleton (.sign ts .plus)⟩
  | operand s =>
      rw [Awaiting.completion, tokens_mark_one]
      exact ⟨_, .cons (.bare ts s) (.cons (.roll s _ _ room) (.singleton (.sign _ .plus)))⟩
  | mark s n =>
      rw [Awaiting.completion, tokens_mark_one]
      exact ⟨_, .cons (.mark ts s n) (.cons (.roll s _ _ room) (.singleton (.sign _ .plus)))⟩
  | sides s count =>
      rw [Awaiting.completion, tokens_one]
      exact ⟨_, .cons (.roll s count _ room) (.singleton (.sign _ .plus))⟩

lemma head?_tokens_completion (a : Awaiting) :
    (tokens a.completion).head? ≠ some (.sign .minus) := by
  cases a with
  | sign => simp [Awaiting.completion, tokens, pieces]
  | operand s => simp [Awaiting.completion, tokens_mark_one]
  | mark s n => simp [Awaiting.completion, tokens_mark_one]
  | sides s count => simp [Awaiting.completion, tokens_one]

lemma lead_append {ts us : List Token} (h : us.head? ≠ some (.sign .minus)) :
    lead (ts ++ us) = lead ts := by
  cases ts with
  | nil => exact lead_of_ne h
  | cons t ts => rfl

/-- Sides are awaited behind the mark only, and that is not a digit. -/
lemma getLast?_of_sides {s : Sign} {count : Option UInt64} (ha : mid.awaiting = .sides s count)
    (hread : Moves max Reading.start (lead (tokens cs) ++ tokens cs) mid) :
    cs.getLast? = some 'c' := by
  rcases List.eq_nil_or_concat (pieces cs) with hnil | ⟨ps, p, hlast⟩
  · rw [tokens, hnil] at hread
    have hfollows : mid.awaiting.Follows (.sign .plus) := Moves.follows_of_singleton hread
    rw [ha] at hfollows
    cases hfollows
  · rw [List.concat_eq_append] at hlast
    have htokens : tokens cs = ps.map Token.ofPiece ++ [Token.ofPiece p] := by
      rw [tokens, hlast, List.map_append, List.map_singleton]
    rw [htokens, ← List.append_assoc] at hread
    have hfollows : mid.awaiting.Follows (Token.ofPiece p) := hread.follows
    rw [ha] at hfollows
    have hmem : p ∈ pieces cs := by simp [hlast]
    have hp : p = ['c'] := (isPiece_of_mem_pieces hmem).eq_of_cabbage hfollows
    rw [← flatten_pieces cs, hlast, hp]
    simp

/-- No digit of a text meets one of its completion. -/
lemma tokens_append_completion
    (hread : Moves max Reading.start (lead (tokens cs) ++ tokens cs) mid) :
    tokens (cs ++ mid.awaiting.completion) = tokens cs ++ tokens mid.awaiting.completion := by
  have hcut : pieces (cs ++ mid.awaiting.completion) =
      pieces cs ++ pieces mid.awaiting.completion := by
    apply pieces_append
    intro x hx y hy
    cases ha : mid.awaiting with
    | sign => rw [ha] at hy; cases hy
    | operand s =>
        rw [ha] at hy
        obtain rfl := Option.some.inj hy
        exact Bool.and_false _
    | mark s n =>
        rw [ha] at hy
        obtain rfl := Option.some.inj hy
        exact Bool.and_false _
    | sides s count =>
        rw [getLast?_of_sides ha hread] at hx
        obtain rfl := Option.some.inj hx
        exact Bool.false_and _
  rw [tokens, hcut, List.map_append, tokens, tokens]

lemma isAscii_completion (a : Awaiting) : ∀ c ∈ a.completion, isAscii c = true := by
  cases a <;> simp [Awaiting.completion, isAscii]

/-- **A text over which moves can be made is viable.** -/
theorem viable_of_moves {s : String} (hascii : ∀ c ∈ s.toList, isAscii c = true)
    (hread : Moves max Reading.start (lead (tokens s.toList) ++ tokens s.toList) mid) :
    Viable s := by
  refine ⟨String.ofList mid.awaiting.completion, accepted_iff.mpr ?_⟩
  rw [String.toList_append, String.toList_ofList]
  constructor
  · intro c hc
    rcases List.mem_append.mp hc with hc | hc
    · exact hascii c hc
    · exact isAscii_completion _ c hc
  · have hcap : mid.terms.length ≤ max := hread.length_le (Nat.zero_le _)
    obtain ⟨r, hrest⟩ := exists_moves_completion mid (Nat.lt_succ_of_le hcap)
    refine ⟨max + 1, r, ?_⟩
    rw [framedTokens_eq, tokens_append_completion hread, lead_append (head?_tokens_completion _)]
    have hall := (hread.under (Nat.le_succ_of_le hcap)).append hrest
    simpa using hall

/-! ## Texts that cannot be completed -/

/-- **A text with a refused token in it is not accepted.** -/
theorem not_accepted_of_refused {t found : Token} {ts us : List Token} {s : String}
    (hs : framedTokens s.toList = ts ++ t :: us) (hread : Moves max Reading.start ts mid)
    (hrefused : Refused mid.awaiting t found) : ¬ Accepted s := by
  intro h
  obtain ⟨-, max', r, hmoves⟩ := accepted_iff.mp h
  rw [hs] at hmoves
  exact hrefused.not_moves hread hmoves

lemma tokens_append_cons {c : Char} (hc : c.isDigit = false) (front back : List Char) :
    tokens (front ++ c :: back) = tokens front ++ Token.ofPiece [c] :: tokens back := by
  rw [tokens, pieces_append_cons hc, List.map_append, List.map_cons, tokens, tokens]

/-! ## Where reading stops -/

/-- **A fault points at the earliest place there is.**  What stands in front of it can be completed
to a text that is accepted.  If it points at something, nothing that begins with that is accepted
any more, however it goes on and whatever the cap; if it points at nothing, it is at the end of the
text, which can be completed but is not accepted as it is. -/
theorem unexpected_earliest {max : Nat} {s : String} {found : Token} {p : Place}
    (hascii : ∀ c ∈ s.toList, isAscii c = true)
    (h : readTerms max s = .error (.unexpected found p)) :
    ∃ front back : String, s = front ++ p.slice ++ back ∧ p.start = front.utf8ByteSize ∧
      Viable front ∧
      (p.start < p.stop → ¬ Viable (front ++ p.slice)) ∧
      (p.start = p.stop → p.start = s.utf8ByteSize ∧ Viable s ∧ ¬ Accepted s) := by
  obtain ⟨read, hstop⟩ := (readTerms_eq_unexpected_iff hascii).mp h
  cases hstop.halt with
  | @character front back c mid hs hc hlead hread hrefused =>
      refine ⟨String.ofList front, String.ofList back, ?_, rfl, ?_, ?_, ?_⟩
      · apply String.toList_inj.mp
        simp [hs]
      · rw [← String.toList_ofList (l := front)] at hread
        refine viable_of_moves ?_ hread
        intro a ha
        rw [String.toList_ofList] at ha
        exact hascii a (by simp [hs, ha])
      · rintro - ⟨rest, haccepted⟩
        have hchars : (String.ofList front ++ String.ofList [c] ++ rest).toList =
            front ++ c :: rest.toList := by simp
        have hframed : framedTokens (String.ofList front ++ String.ofList [c] ++ rest).toList =
            lead (tokens front) ++ tokens front ++
              Token.ofPiece [c] :: (tokens rest.toList ++ [.sign .plus]) := by
          rw [hchars, framedTokens_eq, tokens_append_cons hc, lead_append_cons, hlead]
          simp
        exact not_accepted_of_refused hframed hread hrefused haccepted
      · intro hempty
        have hpos : 0 < width [c] := width_pos (by simp)
        have hstop : width front = width front + width [c] := hempty
        omega
  | @ending mid hread hrefused =>
      have hviable : Viable s := viable_of_moves hascii hread
      refine ⟨s, "", by simp, rfl, hviable, ?_, ?_⟩
      · intro hlt
        exact absurd hlt (Nat.lt_irrefl _)
      · intro _
        exact ⟨rfl, hviable, not_accepted_of_refused (framedTokens_eq _) hread hrefused⟩

/-- A wide number may still become the count of a roll, and it is the sign behind it that spoils
that. -/
theorem unexpected_earliest_wide_number :
    (∀ c ∈ "2c6+18446744073709551616-1".toList, isAscii c = true) ∧
      readTerms 5 "2c6+18446744073709551616-1" =
        .error (.unexpected (.number none) ⟨24, "-"⟩) ∧
      ∃ front back, "2c6+18446744073709551616-1" = front ++ "-" ++ back ∧
        front.utf8ByteSize = 24 ∧ Viable front ∧ ¬ Viable (front ++ "-") := by
  have hascii : ∀ c ∈ "2c6+18446744073709551616-1".toList, isAscii c = true :=
    List.all_eq_true.mp (by decide +kernel)
  have h : readTerms 5 "2c6+18446744073709551616-1" =
      .error (.unexpected (.number none) ⟨24, "-"⟩) := by decide +kernel
  obtain ⟨front, back, hs, hstart, hviable, hspoilt, -⟩ := unexpected_earliest hascii h
  exact ⟨hascii, h, front, back, hs, hstart.symm, hviable, hspoilt (by decide)⟩

end CabbageFormula
