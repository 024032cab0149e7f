import CabbageFormula.Text.Quoted
import Mathlib.Tactic.Lemma

/-!
# Reading quoted text

Inside quotes every character is written so that it shows, and so that it can be read again: what
is written for a character tells where it ends, and no character but the one it was written for is
read from it.  Since nothing that is written inside begins with a quotation mark, a quoted text
tells where it ends, too, whatever follows it.

* `digitValue`, `hexValue`, `hexValue_toDigits` — code points read back from their digits.
* `Shows`, `shows_of_mem_quoteChars` — all that is written shows.
* `unescape?`, `unescape?_escape_append` — one character read back.
* `quoteChars_append_inj` — **a quoted text tells what was quoted** and what follows it.
-/

namespace CabbageFormula.Text

/-! ## Hexadecimal digits -/

/-- The value of a hexadecimal digit, in lower case. -/
def digitValue (c : Char) : Nat :=
  if c.isDigit then c.toNat - '0'.toNat else c.toNat - 'a'.toNat + 10

/-- The value of a run of hexadecimal digits. -/
def hexValue (ds : List Char) : Nat := ds.foldl (fun n c => 16 * n + digitValue c) 0

lemma hexValue_concat (ds : List Char) (c : Char) :
    hexValue (ds ++ [c]) = 16 * hexValue ds + digitValue c := by
  rw [hexValue, List.foldl_append]
  rfl

lemma digitValue_digitChar : ∀ d < 16, digitValue d.digitChar = d := by
  decide

lemma hexValue_toDigits (n : Nat) : hexValue (Nat.toDigits 16 n) = n := by
  induction n using Nat.strongRecOn with
  | ind n ih =>
      by_cases h : n < 16
      · rw [Nat.toDigits_of_lt_base h, ← List.nil_append [n.digitChar], hexValue_concat,
          digitValue_digitChar n h]
        exact Nat.zero_add n
      · rw [Nat.toDigits_of_base_le (by decide) (Nat.le_of_not_lt h), hexValue_concat,
          ih (n / 16) (by omega), digitValue_digitChar _ (Nat.mod_lt n (by decide))]
        exact Nat.div_add_mod n 16

lemma exists_digitChar_of_mem_toDigits {n : Nat} {c : Char} (h : c ∈ Nat.toDigits 16 n) :
    ∃ d < 16, c = d.digitChar := by
  induction n using Nat.strongRecOn with
  | ind n ih =>
      by_cases hn : n < 16
      · rw [Nat.toDigits_of_lt_base hn, List.mem_singleton] at h
        exact ⟨n, hn, h⟩
      · rw [Nat.toDigits_of_base_le (by decide) (Nat.le_of_not_lt hn), List.mem_append,
          List.mem_singleton] at h
        rcases h with h | h
        · exact ih (n / 16) (by omega) h
        · exact ⟨n % 16, Nat.mod_lt n (by decide), h⟩

lemma ne_brace_of_mem_toDigits {n : Nat} {c : Char} (h : c ∈ Nat.toDigits 16 n) : c ≠ '\x7d' := by
  have hdigits : ∀ d < 16, d.digitChar ≠ '\x7d' := by decide
  obtain ⟨d, hd, rfl⟩ := exists_digitChar_of_mem_toDigits h
  exact hdigits d hd

/-! ## What shows -/

/-- **A character shows** if it is neither a control character nor hidden. -/
def Shows (c : Char) : Prop := isControl c = false ∧ isHidden c = false

instance : DecidablePred Shows := fun _ => inferInstanceAs (Decidable (_ ∧ _))

lemma shows_of_ascii {c : Char} (lo : 0x20 ≤ c.toNat) (hi : c.toNat < 0x7F) : Shows c := by
  refine ⟨?_, isHidden_eq_false_of_lt (by omega)⟩
  simp only [isControl, Bool.or_eq_false_iff, Bool.and_eq_false_iff, decide_eq_false_iff_not]
  omega

lemma shows_of_isDigit {c : Char} (h : c.isDigit = true) : Shows c := by
  rw [Char.isDigit_iff_toNat] at h
  have hzero : '0'.toNat = 48 := rfl
  have hnine : '9'.toNat = 57 := rfl
  exact shows_of_ascii (by omega) (by omega)

lemma shows_of_mem_escapeCode {c d : Char} (h : d ∈ escapeCode c) : Shows d := by
  have hdigits : ∀ n < 16, Shows n.digitChar := by decide
  simp only [escapeCode, List.mem_cons, List.mem_append, List.not_mem_nil, or_false] at h
  rcases h with rfl | rfl | rfl | h | rfl
  case inr.inr.inr.inl =>
    obtain ⟨n, hn, rfl⟩ := exists_digitChar_of_mem_toDigits h
    exact hdigits n hn
  all_goals decide

/-- The characters with a short escape, each with its mark behind the backslash. -/
def shortEscapes : List (Char × Char) :=
  [('"', '"'), ('\\', '\\'), ('\x00', '0'), ('\t', 't'), ('\n', 'n'), ('\r', 'r')]

lemma escape_of_mem_shortEscapes :
    ∀ short ∈ shortEscapes, escape short.1 = ['\\', short.2] := by
  decide

/-- **The three ways to write a character.** -/
lemma escape_cases (c : Char) :
    (∃ mark, (c, mark) ∈ shortEscapes ∧ escape c = ['\\', mark]) ∨ escape c = escapeCode c ∨
      (Shows c ∧ c ≠ '\\' ∧ escape c = [c]) := by
  by_cases hshort : ∃ mark, (c, mark) ∈ shortEscapes
  · obtain ⟨mark, hmark⟩ := hshort
    exact .inl ⟨mark, hmark, escape_of_mem_shortEscapes _ hmark⟩
  · simp only [shortEscapes, List.mem_cons, Prod.mk.injEq, List.not_mem_nil, or_false,
      exists_or, exists_eq_right, not_or] at hshort
    obtain ⟨hquotation, hbackslash, hzero, htab, hnewline, hreturn⟩ := hshort
    rw [escape, if_neg (by simp [hquotation, hbackslash]), if_neg hzero, if_neg htab,
      if_neg hnewline, if_neg hreturn]
    split
    case isTrue => exact .inr (.inl rfl)
    case isFalse hplain => exact .inr (.inr ⟨by simpa [Shows] using hplain, hbackslash, rfl⟩)

/-- **All that is written for a character shows.** -/
lemma shows_of_mem_escape {c d : Char} (h : d ∈ escape c) : Shows d := by
  have hmarks : ∀ short ∈ shortEscapes, Shows short.2 := by decide
  rcases escape_cases c with ⟨mark, hmark, hc⟩ | hc | ⟨hshows, -, hc⟩ <;> rw [hc] at h
  · simp only [List.mem_cons, List.not_mem_nil, or_false] at h
    rcases h with rfl | rfl
    · decide
    · exact hmarks _ hmark
  · exact shows_of_mem_escapeCode h
  · obtain rfl := List.mem_singleton.mp h
    exact hshows

lemma shows_of_mem_quoteChars {cs : List Char} {d : Char} (h : d ∈ quoteChars cs) : Shows d := by
  simp only [quoteChars, List.mem_cons, List.mem_append, List.mem_flatMap, List.not_mem_nil,
    or_false] at h
  rcases h with rfl | ⟨c, -, hd⟩ | rfl
  · decide
  · exact shows_of_mem_escape hd
  · decide

/-! ## Reading back -/

/-- Reads a character behind the backslash that begins to write it. -/
def unescapeMark? : List Char → Option (Char × List Char)
  | [] => none
  | '0' :: rest => some ('\x00', rest)
  | 't' :: rest => some ('\t', rest)
  | 'n' :: rest => some ('\n', rest)
  | 'r' :: rest => some ('\r', rest)
  | 'u' :: rest =>
    some (Char.ofNat (hexValue ((rest.drop 1).takeWhile (· ≠ '\x7d'))),
      ((rest.drop 1).dropWhile (· ≠ '\x7d')).drop 1)
  | c :: rest => some (c, rest)

/-- **Reads one character** as it is written inside quotes, and returns what follows it. -/
def unescape? : List Char → Option (Char × List Char)
  | [] => none
  | c :: rest => if c = '\\' then unescapeMark? rest else some (c, rest)

lemma unescape?_escapeCode_append (c : Char) (rest : List Char) :
    unescape? (escapeCode c ++ rest) = some (c, rest) := by
  have hdigits : ∀ d ∈ Nat.toDigits 16 c.toNat, decide (d ≠ '\x7d') = true :=
    fun d hd => decide_eq_true (ne_brace_of_mem_toDigits hd)
  have hbehind : ((escapeCode c ++ rest).drop 3) = Nat.toDigits 16 c.toNat ++ '\x7d' :: rest := by
    simp [escapeCode]
  show some (Char.ofNat (hexValue (((escapeCode c ++ rest).drop 3).takeWhile (· ≠ '\x7d'))),
    (((escapeCode c ++ rest).drop 3).dropWhile (· ≠ '\x7d')).drop 1) = _
  rw [hbehind, List.takeWhile_append_of_pos hdigits, List.dropWhile_append_of_pos hdigits,
    List.takeWhile_cons_of_neg (by decide), List.dropWhile_cons_of_neg (by decide),
    List.append_nil, hexValue_toDigits, Char.ofNat_toNat]
  rfl

/-- **What is written for a character reads back as it**, whatever follows. -/
lemma unescape?_escape_append (c : Char) (rest : List Char) :
    unescape? (escape c ++ rest) = some (c, rest) := by
  rcases escape_cases c with ⟨mark, hmark, hc⟩ | hc | ⟨-, hbackslash, hc⟩ <;> rw [hc]
  · simp only [shortEscapes, List.mem_cons, Prod.mk.injEq, List.not_mem_nil, or_false] at hmark
    rcases hmark with ⟨rfl, rfl⟩ | ⟨rfl, rfl⟩ | ⟨rfl, rfl⟩ | ⟨rfl, rfl⟩ | ⟨rfl, rfl⟩ | ⟨rfl, rfl⟩
    all_goals rfl
  · exact unescape?_escapeCode_append c rest
  · exact if_neg hbackslash

lemma escape_append_inj {c d : Char} {as bs : List Char} (h : escape c ++ as = escape d ++ bs) :
    c = d ∧ as = bs := by
  have hread := congrArg unescape? h
  rw [unescape?_escape_append, unescape?_escape_append] at hread
  simpa using hread

/-- Nothing that is written inside quotes begins with a quotation mark. -/
lemma escape_append_ne_quotation (c : Char) (as bs : List Char) : escape c ++ as ≠ '"' :: bs := by
  intro h
  have hread := unescape?_escape_append c as
  have hc : c = '"' := by
    rw [h] at hread
    exact (congrArg Prod.fst (Option.some.inj hread)).symm
  subst hc
  cases h

/-- **A quoted text tells what was quoted** and what follows it. -/
theorem quoteChars_append_inj {cs ds as bs : List Char}
    (h : quoteChars cs ++ as = quoteChars ds ++ bs) : cs = ds ∧ as = bs := by
  have hinner : cs.flatMap escape ++ '"' :: as = ds.flatMap escape ++ '"' :: bs := by
    simpa [quoteChars] using h
  clear h
  induction cs generalizing ds with
  | nil =>
      cases ds with
      | nil => exact ⟨rfl, (List.cons.inj hinner).2⟩
      | cons d ds =>
          rw [List.flatMap_cons, List.append_assoc] at hinner
          exact absurd hinner.symm (escape_append_ne_quotation d _ _)
  | cons c cs ih =>
      cases ds with
      | nil =>
          rw [List.flatMap_cons, List.append_assoc] at hinner
          exact absurd hinner (escape_append_ne_quotation c _ _)
      | cons d ds =>
          rw [List.flatMap_cons, List.flatMap_cons, List.append_assoc, List.append_assoc] at hinner
          obtain ⟨rfl, hrest⟩ := escape_append_inj hinner
          obtain ⟨rfl, rfl⟩ := ih hrest
          exact ⟨rfl, rfl⟩

end CabbageFormula.Text
