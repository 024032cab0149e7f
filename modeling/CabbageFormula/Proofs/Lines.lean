import CabbageFormula.Console
import Mathlib.Tactic.Lemma

/-!
# The lines of bytes

Lines are found byte by byte, in one pass.  The same lines are had by cutting the bytes at every
newline and then trimming the stretches.  Bytes up to the end of a line can be taken off, and what
is left has the other lines.

* `Console.cut`, `Console.lines_eq_cut` — the lines as trimmed stretches between newlines.
* `Console.Closed` — bytes that are not in the middle of a line.
* `Console.lines_append` — the lines of closed bytes and of those behind them.
* `Console.exists_closed_of_lines` — bytes can be parted in front of each of their lines.
-/

namespace CabbageFormula.Console

/-! ## Byte by byte -/

/-- A byte put in front of the first line. -/
def attach (b : UInt8) : List (List UInt8) → List (List UInt8)
  | [] => [[b]]
  | line :: more => (b :: line) :: more

lemma lines_cons (b : UInt8) (bytes : List UInt8) :
    lines (b :: bytes) =
      if b = newline then [] :: lines bytes
      else if b = carriageReturn ∧ bytes.head? = some newline then lines bytes
      else attach b (lines bytes) := by
  rw [lines]
  cases lines bytes <;> rfl

lemma lines_ne_nil {bytes : List UInt8} (h : bytes ≠ []) : lines bytes ≠ [] := by
  induction bytes with
  | nil => exact absurd rfl h
  | cons b bytes ih =>
      rw [lines_cons]
      split
      case isTrue => simp
      case isFalse =>
        split
        case isTrue hend =>
          refine ih ?_
          rintro rfl
          cases hend.2
        case isFalse => cases lines bytes <;> simp [attach]

/-! ## Cutting at newlines -/

/-- A stretch without the carriage return that may stand at its end. -/
def chomp (stretch : List UInt8) : List UInt8 :=
  if stretch.getLast? = some carriageReturn then stretch.dropLast else stretch

/-- **The lines of bytes, cut at every newline.**  Each stretch in front of a newline is a line,
less one carriage return at its end; the stretch behind the last newline is a line if there is
something in it. -/
def cut (bytes : List UInt8) : List (List UInt8) :=
  let stretches := bytes.splitOn newline
  stretches.dropLast.map chomp ++ stretches.getLast?.toList.filter (· ≠ [])

lemma chomp_cons {b : UInt8} {stretch : List UInt8}
    (h : ¬ (b = carriageReturn ∧ stretch = [])) : chomp (b :: stretch) = b :: chomp stretch := by
  cases stretch with
  | nil =>
      have hb : b ≠ carriageReturn := fun hb => h ⟨hb, rfl⟩
      simp [chomp, hb]
  | cons c stretch =>
      rw [chomp, chomp, List.getLast?_cons_cons]
      split
      case isTrue => rfl
      case isFalse => rfl

lemma splitOn_newline_cons (b : UInt8) (bytes : List UInt8) :
    (b :: bytes).splitOn newline =
      if b = newline then [] :: bytes.splitOn newline
      else (bytes.splitOn newline).modifyHead (b :: ·) := by
  rw [List.splitOn, List.splitOn, List.splitOnP_cons_eq_if_modifyHead]
  by_cases hb : b = newline
  · rw [if_pos hb, if_pos (beq_iff_eq.mpr hb)]
  · rw [if_neg hb, if_neg (fun h => hb (beq_iff_eq.mp h))]

lemma exists_splitOn_newline (bytes : List UInt8) :
    ∃ first rest, bytes.splitOn newline = first :: rest :=
  List.exists_cons_of_ne_nil (List.splitOnP_ne_nil _ bytes)

/-- Bytes begin with a newline if the first of their stretches is empty, and not the only one. -/
lemma head?_eq_newline_iff {bytes first : List UInt8} {rest : List (List UInt8)}
    (h : bytes.splitOn newline = first :: rest) :
    bytes.head? = some newline ↔ first = [] ∧ rest ≠ [] := by
  cases bytes with
  | nil =>
      obtain ⟨rfl, rfl⟩ := List.cons.inj h
      simp
  | cons b bytes =>
      obtain ⟨front, back, hsplit⟩ := exists_splitOn_newline bytes
      rw [splitOn_newline_cons, hsplit] at h
      by_cases hb : b = newline
      · rw [if_pos hb] at h
        obtain ⟨rfl, rfl⟩ := List.cons.inj h
        simp [hb]
      · rw [if_neg hb] at h
        obtain ⟨rfl, -⟩ := List.cons.inj h
        simp [hb]

/-- **Both ways to the lines lead to the same.** -/
theorem lines_eq_cut (bytes : List UInt8) : lines bytes = cut bytes := by
  induction bytes with
  | nil => rfl
  | cons b bytes ih =>
      obtain ⟨first, rest, hsplit⟩ := exists_splitOn_newline bytes
      have hhead := head?_eq_newline_iff hsplit
      rw [cut, hsplit] at ih
      rw [cut, splitOn_newline_cons, hsplit]
      by_cases hb : b = newline
      · rw [hb, lines_newline, ih, if_pos rfl]
        rfl
      · rw [if_neg hb, List.modifyHead_cons, lines_cons, if_neg hb]
        cases rest with
        | nil =>
            -- the byte is in the stretch behind the last newline
            rw [if_neg (fun h => (hhead.mp h.2).2 rfl), ih]
            cases first <;> rfl
        | cons second rest =>
            by_cases hend : b = carriageReturn ∧ bytes.head? = some newline
            · rw [if_pos hend, ih, (hhead.mp hend.2).1, hend.1]
              rfl
            · have hfirst : ¬ (b = carriageReturn ∧ first = []) :=
                fun h => hend ⟨h.1, hhead.mpr ⟨h.2, by simp⟩⟩
              rw [if_neg hend, ih]
              simp [chomp_cons hfirst, attach]

/-! ## Parting bytes between lines -/

/-- **Closed bytes** are not in the middle of a line: there are none, or the last ends a line. -/
def Closed (bytes : List UInt8) : Prop := bytes = [] ∨ bytes.getLast? = some newline

lemma closed_nil : Closed [] := Or.inl rfl

lemma Closed.cons {b : UInt8} {bytes : List UInt8} (h : Closed bytes) (hne : bytes ≠ []) :
    Closed (b :: bytes) := by
  obtain ⟨c, rest, rfl⟩ := List.exists_cons_of_ne_nil hne
  rcases h with h | h
  · cases h
  · exact Or.inr (by rw [List.getLast?_cons_cons, h])

lemma Closed.tail {b c : UInt8} {bytes : List UInt8} (h : Closed (b :: c :: bytes)) :
    Closed (c :: bytes) := by
  rcases h with h | h
  · cases h
  · rw [List.getLast?_cons_cons] at h
    exact Or.inr h

/-- **The lines of closed bytes and of those behind them.** -/
theorem lines_append {front : List UInt8} (h : Closed front) (back : List UInt8) :
    lines (front ++ back) = lines front ++ lines back := by
  induction front with
  | nil => rfl
  | cons b front ih =>
      cases front with
      | nil =>
          rcases h with h | h
          · cases h
          · obtain rfl := Option.some.inj h
            rw [List.singleton_append, lines_newline, lines_newline]
            rfl
      | cons c front =>
          have hrest := ih h.tail
          -- there is a line left to which the first byte can be added
          obtain ⟨line, more, hlines⟩ :=
            List.exists_cons_of_ne_nil (lines_ne_nil (List.cons_ne_nil c front))
          have hattach : attach b (lines (c :: front) ++ lines back) =
              attach b (lines (c :: front)) ++ lines back := by rw [hlines]; rfl
          have hhead : (c :: front ++ back).head? = (c :: front).head? := rfl
          rw [List.cons_append, lines_cons b (c :: front ++ back), lines_cons b (c :: front), hhead,
            hrest, hattach]
          split
          case isTrue => rfl
          case isFalse => split <;> rfl

lemma Closed.newline_cons {bytes : List UInt8} (h : Closed bytes) : Closed (newline :: bytes) := by
  rcases bytes.eq_nil_or_concat with rfl | ⟨_, _, rfl⟩
  · exact Or.inr rfl
  · exact h.cons (by simp)

/-- **Bytes can be parted in front of each of their lines**, into closed bytes with the lines before
it and bytes with the others. -/
theorem exists_closed_of_lines {bytes line : List UInt8} {after : List (List UInt8)} :
    ∀ {before : List (List UInt8)}, lines bytes = before ++ line :: after →
      ∃ front rest, bytes = front ++ rest ∧ Closed front ∧ lines front = before ∧
        lines rest = line :: after := by
  induction bytes with
  | nil =>
      intro before h
      simp [lines] at h
  | cons b bytes ih =>
      intro before h
      cases before with
      | nil => exact ⟨[], b :: bytes, rfl, closed_nil, rfl, h⟩
      | cons first before =>
          rw [lines_cons] at h
          split at h
          case isTrue hb =>
            obtain ⟨rfl, htail⟩ := List.cons.inj h
            obtain ⟨front, rest, rfl, hclosed, rfl, hrest⟩ := ih htail
            refine ⟨b :: front, rest, rfl, ?_, ?_, hrest⟩
            · rw [hb]; exact hclosed.newline_cons
            · rw [hb]; exact lines_newline front
          case isFalse hb =>
            split at h
            case isTrue hend =>
              obtain ⟨front, rest, rfl, hclosed, hfront, hrest⟩ := ih h
              obtain ⟨c, front, rfl⟩ : ∃ c tail, front = c :: tail :=
                List.exists_cons_of_ne_nil (by rintro rfl; cases hfront)
              refine ⟨b :: c :: front, rest, rfl, hclosed.cons (by simp), ?_, hrest⟩
              rw [lines_cons, if_neg hb, if_pos ⟨hend.1, hend.2⟩, hfront]
            case isFalse hend =>
              -- the line to which the byte is added begins behind it
              cases hlines : lines bytes with
              | nil => simp [hlines, attach] at h
              | cons line' more =>
                  rw [hlines] at h
                  obtain ⟨rfl, rfl⟩ := List.cons.inj h
                  have hparts : lines bytes = (line' :: before) ++ line :: after := hlines
                  obtain ⟨front, rest, rfl, hclosed, hfront, hrest⟩ := ih hparts
                  obtain ⟨c, front, rfl⟩ : ∃ c tail, front = c :: tail :=
                    List.exists_cons_of_ne_nil (by rintro rfl; cases hfront)
                  have hend' : ¬ (b = carriageReturn ∧ (c :: front).head? = some newline) := hend
                  refine ⟨b :: c :: front, rest, rfl, hclosed.cons (by simp), ?_, hrest⟩
                  rw [lines_cons, if_neg hb, if_neg hend', hfront]
                  rfl

end CabbageFormula.Console
