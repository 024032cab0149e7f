import CabbageFormula.Proofs.Refusals
import CabbageFormula.Proofs.Screening
import CabbageFormula.Session
import CabbageFormula.Source.Scripted

/-!
# What a fault points at

The place that a fault of reading gives is a place of the text, and what is said to have been found
is what stands there; with one exception.  A number that is too wide to be a constant is found out
at the sign behind it, or at the end of the text: then the number is what was found, and the place
is that of the sign or of the end.

* `Lexeme.IsWide`, `EndsInWideConstant` — the numbers that the exception is about.
* `Points` — **what a fault points at**, and how it is shown.
* `points_of_readTerms` — every fault of reading points at what it says.
* `PointsIntoFormula` — the same place in a formula that still has its blanks.
* `unexpected_points` — both, for texts and for formulas.
-/

namespace CabbageFormula

/-! ## Wide numbers -/

/-- **A wide number**: a lexeme of digits whose value is not a word. -/
def Lexeme.IsWide (l : Lexeme) : Prop :=
  ∃ k : Literal, l.place.slice = String.ofList k.digits ∧ 2 ^ 64 ≤ k.value

/-- **Lexemes that end in a wide constant**: in a wide number that does not stand behind a mark. -/
def EndsInWideConstant (ls : List Lexeme) : Prop :=
  ∃ front l, ls = front ++ [l] ∧ l.token = .number none ∧ l.IsWide ∧
    ∀ k ∈ front.getLast?, k.token ≠ .cabbage

variable {max : Nat} {mid : Reading} {found : Token} {s : String} {p : Place}

lemma Lexeme.isWide_of_mem_scan {l : Lexeme} (hl : l ∈ scan s) (hwide : l.token = .number none) :
    l.IsWide := by
  obtain ⟨front, back, hscan⟩ := List.append_of_mem hl
  obtain ⟨before, piece, after, hpieces, -, rfl, -⟩ := exists_of_scan hscan
  have hmem : piece ∈ pieces s.toList := by simp [hpieces]
  obtain ⟨k, rfl, hk⟩ := (isPiece_of_mem_pieces hmem).eq_of_number hwide
  exact ⟨k, rfl, Numeral.word?_eq_none_iff.mp hk⟩

lemma Move.awaiting_of_mark {r r' : Reading} {t : Token} {sgn : Sign} {n : Option UInt64}
    (h : Move max r t r') (hr' : r'.awaiting = .mark sgn n) : r.awaiting = .operand sgn := by
  cases h with
  | number => cases hr'; rfl
  | _ => cases hr'

/-- **A wide number in front of a sign is a constant**, and it is the last that has been read. -/
lemma endsInWideConstant_of_moves {ls : List Lexeme} {us : List Token} {sgn : Sign}
    (hls : ∀ l ∈ ls, l ∈ Lexeme.scan s)
    (hread : Moves max Reading.start (lead us ++ ls.map (·.token)) mid)
    (hmid : mid.awaiting = .mark sgn none) : EndsInWideConstant ls := by
  have hstart : ∀ {m : Reading}, Moves max Reading.start (lead us) m →
      m.awaiting = .sign ∨ m.awaiting = .operand .plus := by
    intro m hm
    rw [lead] at hm
    split at hm
    case isTrue =>
      cases hm
      exact .inl rfl
    case isFalse =>
      cases hm with
      | cons head tail =>
          cases head
          cases tail
          exact .inr rfl
  rcases List.eq_nil_or_concat ls with rfl | ⟨front, l, rfl⟩
  · rw [List.map_nil, List.append_nil] at hread
    rcases hstart hread with h | h
    · rw [hmid] at h; cases h
    · rw [hmid] at h; cases h
  · rw [List.concat_eq_append] at hls hread ⊢
    rw [List.map_append, List.map_singleton, ← List.append_assoc] at hread
    have hwide : l.token = .number none := by
      have hfollows := hread.follows
      rw [hmid] at hfollows
      exact hfollows
    refine ⟨front, l, rfl, hwide, Lexeme.isWide_of_mem_scan (hls l (by simp)) hwide, ?_⟩
    -- a number that may be a constant has been read behind a sign
    obtain ⟨before, hfront, hlast⟩ := hread.exists_of_concat
    have hbefore : before.awaiting = .operand sgn := hlast.awaiting_of_mark hmid
    intro k hk hmark
    obtain ⟨rest, rfl⟩ := List.getLast?_eq_some_iff.mp hk
    rw [List.map_append, List.map_singleton, ← List.append_assoc] at hfront
    have hfollows := hfront.follows
    rw [hbefore, hmark] at hfollows
    cases hfollows

/-! ## Places as they are shown -/

lemma Place.text_of_slice_ne (h : p.slice ≠ "") :
    p.text.toList.head? = some '"' := by
  rw [Place.text, if_neg h, String.toList_append, String.toList_append, Text.toList_quote]
  rfl

lemma Place.text_of_slice_eq (h : p.slice = "") :
    "end of formula".toList <+: p.text.toList := by
  have hparts : "end of formula (position " = "end of formula" ++ " (position " := by decide
  rw [Place.text, if_pos h, hparts]
  simp

lemma Place.start_lt_of_in (hin : p.In s) (h : p.slice ≠ "") : p.start < s.utf8ByteSize := by
  obtain ⟨front, back, rfl, hstart⟩ := hin
  have hpos : 0 < p.slice.utf8ByteSize := Nat.pos_of_ne_zero fun hzero =>
    h (String.utf8ByteSize_eq_zero_iff.mp hzero)
  rw [String.utf8ByteSize_append, String.utf8ByteSize_append]
  omega

/-! ## What a fault points at -/

/-- **What a fault of reading points at** in a text. -/
structure Points (s : String) (found : Token) (p : Place) : Prop where
  /-- The place is one of the text. -/
  inside : p.In s
  /-- What is found is never a number that is a word. -/
  found_ne_word : ∀ n, found ≠ .number (some n)
  /-- A place that says nothing is the end of the text.  What is found there is the plus that is
  understood, or the wide constant that the text ends in. -/
  at_end : p.slice = "" → p = .ending s ∧
    (found = .sign .plus ∨ found = .number none ∧ EndsInWideConstant (Lexeme.scan s))
  /-- Any other place is that of a lexeme.  What is found is its token, or the wide constant in
  front of it, if it is a sign. -/
  at_lexeme : p.slice ≠ "" → ∃ front l back, Lexeme.scan s = front ++ l :: back ∧ l.place = p ∧
    (found = l.token ∨
      found = .number none ∧ (∃ next, l.token = .sign next) ∧ EndsInWideConstant front)
  /-- A reader is told of the end of the formula exactly if the place is there. -/
  shown : "end of formula".toList <+: p.text.toList ↔ p.start = s.utf8ByteSize

lemma Place.shown_iff (hin : p.In s) (hend : p.slice = "" → p = .ending s) :
    "end of formula".toList <+: p.text.toList ↔ p.start = s.utf8ByteSize := by
  by_cases h : p.slice = ""
  · refine iff_of_true (text_of_slice_eq h) ?_
    rw [hend h]
    rfl
  · refine iff_of_false ?_ (Nat.ne_of_lt (start_lt_of_in hin h))
    rintro ⟨rest, hrest⟩
    have hhead := text_of_slice_ne h
    rw [← hrest] at hhead
    cases hhead

lemma Points.of_parts (hin : p.In s) (hfound : ∀ n, found ≠ .number (some n))
    (hend : p.slice = "" → p = .ending s ∧
      (found = .sign .plus ∨ found = .number none ∧ EndsInWideConstant (Lexeme.scan s)))
    (hlexeme : p.slice ≠ "" → ∃ front l back, Lexeme.scan s = front ++ l :: back ∧ l.place = p ∧
      (found = l.token ∨
        found = .number none ∧ (∃ next, l.token = .sign next) ∧ EndsInWideConstant front)) :
    Points s found p :=
  ⟨hin, hfound, hend, hlexeme, Place.shown_iff hin fun h => (hend h).1⟩

/-! ### Characters outside ASCII -/

lemma Token.ofPiece_of_foreign {c : Char} (h : isAscii c = false) : ofPiece [c] = .stray := by
  have hne : ∀ d : Char, isAscii d = true → c ≠ d := by
    rintro d hd rfl
    rw [hd] at h
    cases h
  have hdigit : c.isDigit = false := by
    rw [← Bool.not_eq_true, Char.isDigit_iff_toNat]
    have hlarge : ¬ c.toNat < 128 := of_decide_eq_false h
    have hnine : '9'.toNat = 57 := rfl
    omega
  rw [ofPiece, if_neg (by simp [hdigit]), if_neg (hne 'c' rfl), Sign.ofChar?, if_neg (hne '+' rfl),
    if_neg (hne '-' rfl)]

/-- A character outside ASCII is a lexeme of its own. -/
lemma points_of_foreign (h : foreign? s = some p) : Points s .stray p := by
  obtain ⟨front, c, back, hs, -, hc, rfl⟩ := exists_of_foreign h
  have hdigit : c.isDigit = false := by
    rw [← Bool.not_eq_true]
    intro hdigit
    have htoken := Token.ofPiece_of_foreign hc
    rw [Token.ofPiece_of_isDigit hdigit] at htoken
    cases htoken
  have hscan : Lexeme.scan s = Lexeme.locate 0 (pieces front) ++
      Lexeme.ofPiece (width front) [c] ::
        Lexeme.locate (Lexeme.ofPiece (width front) [c]).place.stop (pieces back) := by
    rw [Lexeme.scan, hs, pieces_append_cons hdigit, Lexeme.locate_append, flatten_pieces,
      Nat.zero_add, Lexeme.locate_cons]
  have hin := Lexeme.in_of_scan hscan
  rw [Lexeme.place_ofPiece] at hin
  refine .of_parts hin (by simp) ?_ ?_
  · intro hempty
    have hne : (String.ofList [c]).toList ≠ [] := by simp
    exact absurd (congrArg String.toList hempty) hne
  · intro _
    refine ⟨_, _, _, hscan, rfl, .inl ?_⟩
    rw [Lexeme.token_ofPiece, Token.ofPiece_of_foreign hc]

/-! ### Tokens that are refused -/

lemma points_of_stop {front : List Lexeme} (h : Stop max s found front p) : Points s found p := by
  cases h with
  | @lexeme _ back l mid hscan hread hrefused =>
      have hmem : ∀ k ∈ front, k ∈ Lexeme.scan s := by
        intro k hk
        rw [hscan]
        exact List.mem_append_left _ hk
      have hslice : l.place.slice ≠ "" := by
        obtain ⟨before, piece, after, hpieces, -, rfl, -⟩ := Lexeme.exists_of_scan hscan
        have hpiece : piece ∈ pieces s.toList := by simp [hpieces]
        intro hempty
        exact Lexeme.ne_nil_of_mem_pieces hpiece (by simpa using congrArg String.toList hempty)
      rcases hrefused.eq_or_wide with ⟨rfl, htakes⟩ | ⟨sgn, next, hmid, hnext, rfl⟩
      · refine .of_parts (Lexeme.in_of_scan hscan) ?_ (fun h => absurd h hslice) ?_
        · intro n hn
          rw [hn, takes_number hscan hn hread] at htakes
          cases htakes
        · intro _
          exact ⟨front, l, back, hscan, rfl, .inl rfl⟩
      · refine .of_parts (Lexeme.in_of_scan hscan) (by simp) (fun h => absurd h hslice) ?_
        intro _
        have hwide := endsInWideConstant_of_moves hmem hread hmid
        exact ⟨front, l, back, hscan, rfl, .inr ⟨rfl, ⟨next, hnext⟩, hwide⟩⟩
  | @ending mid hread hrefused =>
      have hslice : ¬ (Place.ending s).slice ≠ "" := fun h => h rfl
      rcases hrefused.eq_or_wide with ⟨rfl, -⟩ | ⟨sgn, next, hmid, -, rfl⟩
      · exact .of_parts (Place.ending_in s) (by simp) (fun _ => ⟨rfl, .inl rfl⟩)
          (fun h => absurd h hslice)
      · have hall : Moves max Reading.start
            (lead (tokens s.toList) ++ (Lexeme.scan s).map (·.token)) mid := by
          rw [map_token_scan]
          exact hread
        have hwide := endsInWideConstant_of_moves (fun _ hl => hl) hall hmid
        exact .of_parts (Place.ending_in s) (by simp) (fun _ => ⟨rfl, .inr ⟨rfl, hwide⟩⟩)
          (fun h => absurd h hslice)

/-- **Every fault of reading points at what it says.** -/
theorem points_of_readTerms (h : readTerms max s = .error (.unexpected found p)) :
    Points s found p := by
  cases hforeign : foreign? s with
  | some q =>
      rw [readTerms_of_foreign hforeign] at h
      cases h
      exact points_of_foreign hforeign
  | none =>
      obtain ⟨front, hstop⟩ :=
        (readTerms_eq_unexpected_iff (foreign?_eq_none_iff.mp hforeign)).mp h
      exact points_of_stop hstop

/-! ## In a formula with blanks -/

/-- **What a fault points at in a formula as it came**: a character that is not blank, so many bytes
into the formula as the others in front of it take; or the end, behind all characters that are not
blank. -/
structure PointsIntoFormula (formula : String) (p : Place) : Prop where
  at_character : p.slice ≠ "" → ∃ front c back, formula.toList = front ++ c :: back ∧
    Text.isBlank c = false ∧ p.slice = String.ofList [c] ∧
      p.start = width (front.filter fun a => !Text.isBlank a)
  at_end : p.slice = "" → p.start = width (formula.toList.filter fun a => !Text.isBlank a)

/-- A fault points at a single character or at the end. -/
lemma exists_character_of_readTerms (h : readTerms max s = .error (.unexpected found p))
    (hslice : p.slice ≠ "") :
    ∃ front c back, s.toList = front ++ c :: back ∧ p = ⟨width front, String.ofList [c]⟩ := by
  cases hforeign : foreign? s with
  | some q =>
      rw [readTerms_of_foreign hforeign] at h
      cases h
      obtain ⟨front, c, back, hs, -, -, hp⟩ := exists_of_foreign hforeign
      exact ⟨front, c, back, hs, hp⟩
  | none =>
      obtain ⟨front, hstop⟩ :=
        (readTerms_eq_unexpected_iff (foreign?_eq_none_iff.mp hforeign)).mp h
      cases hstop.halt with
      | @character front back c mid hs _ _ _ _ => exact ⟨front, c, back, hs, rfl⟩
      | ending => exact absurd rfl hslice

lemma pointsIntoFormula_of_readTerms {formula : String}
    (h : readTerms max (Formula.strip formula) = .error (.unexpected found p)) :
    PointsIntoFormula formula p where
  at_character hslice := by
    obtain ⟨front, c, back, hs, rfl⟩ := exists_character_of_readTerms h hslice
    rw [Formula.toList_strip] at hs
    obtain ⟨left, right, hformula, hleft, hright⟩ := List.filter_eq_append_iff.mp hs
    obtain ⟨gap, rest, rfl, hgap, hc, -⟩ := List.filter_eq_cons_iff.mp hright
    refine ⟨left ++ gap, c, rest, ?_, ?_, rfl, ?_⟩
    · rw [hformula, List.append_assoc]
    · simpa using hc
    · rw [List.filter_append, hleft, List.filter_eq_nil_iff.mpr hgap, List.append_nil]
  at_end hslice := by
    have hend := ((points_of_readTerms h).at_end hslice).1
    rw [hend, Place.start_ending, ← width_toList, Formula.toList_strip]

lemma readTerms_of_attempt {σ : Type} [RollSource σ] {caps : Caps} {formula : String} {source : σ}
    {why : ReadFault} (h : (attempt caps formula source).result = .error (.read why)) :
    readTerms caps.terms.toNat (Formula.strip formula) = .error why := by
  cases hread : Formula.read caps formula with
  | ok terms =>
      rw [attempt_of_ok hread] at h
      cases he : (evaluate caps terms source).1 <;> rw [he] at h <;> cases h
  | error fault =>
      rw [attempt_of_error hread] at h
      cases h
      rw [Formula.read] at hread
      split at hread
      case h_1 => cases hread
      case h_2 stripped hscreen =>
        obtain ⟨-, -, -, rfl⟩ := Formula.screen_eq_ok_iff.mp hscreen
        split at hread
        case h_1 hwhy => rw [hwhy]; cases hread; rfl
        case h_2 => cases hread

/-- **A fault of reading points at what it says**, in a text that is read, and in a formula that is
rolled: there it says how many bytes stand in front of the character that is refused, blanks not
counted. -/
theorem unexpected_points :
    (∀ max s found p, readTerms max s = .error (.unexpected found p) → Points s found p) ∧
    ∀ (σ : Type) [RollSource σ] (caps : Caps) (formula : String) (source : σ) found p,
      (attempt caps formula source).result = .error (.read (.unexpected found p)) →
        Points (Formula.strip formula) found p ∧ PointsIntoFormula formula p := by
  refine ⟨fun max s found p h => points_of_readTerms h, ?_⟩
  intro σ _ caps formula source found p h
  have hread := readTerms_of_attempt h
  exact ⟨points_of_readTerms hread, pointsIntoFormula_of_readTerms hread⟩

/-- In a formula with blanks: the bytes in front of the minus are those of `2c6` and of the sign and
the number behind it. -/
theorem unexpected_points_with_blanks :
    Points "2c6+18446744073709551616-1" (.number none) ⟨24, "-"⟩ ∧
      PointsIntoFormula " 2c6 + 18446744073709551616 - 1" ⟨24, "-"⟩ := by
  have h : (attempt {} " 2c6 + 18446744073709551616 - 1" (⟨3⟩ : Fixed)).result =
      .error (.read (.unexpected (.number none) ⟨24, "-"⟩)) := by decide +kernel
  have hstrip : Formula.strip " 2c6 + 18446744073709551616 - 1" =
      "2c6+18446744073709551616-1" := by decide +kernel
  have hpoints := unexpected_points.2 Fixed {} _ (⟨3⟩ : Fixed) _ _ h
  rw [hstrip] at hpoints
  exact hpoints

end CabbageFormula
