import CabbageFormula.Proofs.Pieces

/-!
# The places of lexemes

Where the lexemes of a text stand: behind all the bytes of the pieces before them.  So the place of
a lexeme is a stretch of the text, lexemes are in the order of their starts, and what stands before
one of them is a text with just the lexemes before it.

* `width` — how many bytes characters take.
* `Place.In` — a place is a stretch of a text, cut between characters.
* `Lexeme.exists_of_scan` — a lexeme among the others, and the piece it is of.
* `Lexeme.filter_start_lt` — the lexemes that start before a given one.
* `Lexeme.not_number_of_scan` — no number stands directly behind a number.
* `pieces_flatten_front` — the front of a text is cut as it is in the text.
-/

namespace CabbageFormula

/-! ## Bytes -/

/-- **How many bytes characters take** in UTF-8. -/
def width (cs : List Char) : Nat := (String.ofList cs).utf8ByteSize

@[simp] lemma width_nil : width [] = 0 := by
  rw [width, String.ofList_nil, String.utf8ByteSize_empty]

@[simp] lemma width_append (front back : List Char) :
    width (front ++ back) = width front + width back := by
  rw [width, String.ofList_append, String.utf8ByteSize_append, width, width]

lemma width_toList (s : String) : width s.toList = s.utf8ByteSize := by
  rw [width, String.ofList_toList]

lemma width_pos {cs : List Char} (h : cs ≠ []) : 0 < width cs := by
  refine Nat.pos_of_ne_zero fun hzero => h ?_
  have hempty : String.ofList cs = "" := String.utf8ByteSize_eq_zero_iff.mp hzero
  rw [← String.toList_ofList (l := cs), hempty, String.toList_empty]

/-! ## Places in a text -/

/-- **A place is in a text** if the text has its slice behind as many bytes as it says.  Both ends
are between characters, since what stands before and behind the slice are texts. -/
def Place.In (p : Place) (s : String) : Prop :=
  ∃ front back, s = front ++ p.slice ++ back ∧ p.start = front.utf8ByteSize

lemma Place.in_of_toList {p : Place} {s : String} {front back : List Char}
    (hs : s.toList = front ++ p.slice.toList ++ back) (hstart : p.start = width front) :
    p.In s := by
  refine ⟨String.ofList front, String.ofList back, ?_, hstart⟩
  apply String.toList_inj.mp
  rw [hs, String.toList_append, String.toList_append, String.toList_ofList, String.toList_ofList]

lemma Place.ending_in (s : String) : (Place.ending s).In s :=
  ⟨s, "", by simp, rfl⟩

/-! ## Lexemes in a text -/

namespace Lexeme

lemma stop_ofPiece (start : Nat) (piece : List Char) :
    (ofPiece start piece).place.stop = start + width piece := rfl

lemma locate_append (start : Nat) (ps qs : List (List Char)) :
    locate start (ps ++ qs) = locate start ps ++ locate (start + width ps.flatten) qs := by
  induction ps generalizing start with
  | nil => simp
  | cons p ps ih =>
      rw [List.cons_append, locate_cons, locate_cons, ih, stop_ofPiece, List.flatten_cons,
        width_append, Nat.add_assoc, List.cons_append]

/-- A located lexeme comes from a piece, and starts behind all the pieces before that. -/
lemma exists_of_locate {front back : List Lexeme} {l : Lexeme} :
    ∀ {start : Nat} {ps : List (List Char)}, locate start ps = front ++ l :: back →
      ∃ before p after, ps = before ++ p :: after ∧ front = locate start before ∧
        l = ofPiece (start + width before.flatten) p ∧
          back = locate (start + width before.flatten + width p) after := by
  induction front with
  | nil =>
      intro start ps h
      cases ps with
      | nil => cases h
      | cons p ps =>
          obtain ⟨rfl, rfl⟩ := List.cons.inj h
          exact ⟨[], p, ps, rfl, rfl, rfl, rfl⟩
  | cons k front ih =>
      intro start ps h
      cases ps with
      | nil => cases h
      | cons q ps =>
          obtain ⟨rfl, hrest⟩ := List.cons.inj h
          obtain ⟨before, p, after, rfl, rfl, rfl, rfl⟩ := ih hrest
          refine ⟨q :: before, p, after, rfl, rfl, ?_, ?_⟩
          · rw [stop_ofPiece, List.flatten_cons, width_append, Nat.add_assoc]
          · rw [stop_ofPiece, List.flatten_cons, width_append, Nat.add_assoc start]

/-- **A lexeme of a text** is that of a piece, behind all the pieces before it. -/
theorem exists_of_scan {s : String} {front back : List Lexeme} {l : Lexeme}
    (h : scan s = front ++ l :: back) :
    ∃ before p after, pieces s.toList = before ++ p :: after ∧ front = locate 0 before ∧
      l = ofPiece (width before.flatten) p ∧
        back = locate (width before.flatten + width p) after := by
  obtain ⟨before, p, after, hpieces, hfront, hl, hback⟩ := exists_of_locate h
  rw [Nat.zero_add] at hl hback
  exact ⟨before, p, after, hpieces, hfront, hl, hback⟩

lemma in_of_scan {s : String} {front back : List Lexeme} {l : Lexeme}
    (h : scan s = front ++ l :: back) : l.place.In s := by
  obtain ⟨before, p, after, hpieces, -, rfl, -⟩ := exists_of_scan h
  have hs : s.toList = before.flatten ++
      (ofPiece (width before.flatten) p).place.slice.toList ++ after.flatten := by
    rw [← flatten_pieces s.toList, hpieces, place_ofPiece, String.toList_ofList]
    simp
  exact Place.in_of_toList hs rfl

/-! ## The order of lexemes -/

lemma le_start_of_mem_locate {start : Nat} {ps : List (List Char)} {l : Lexeme}
    (h : l ∈ locate start ps) : start ≤ l.place.start := by
  induction ps generalizing start with
  | nil => cases h
  | cons p ps ih =>
      rcases List.mem_cons.mp h with rfl | h
      · exact Nat.le_refl start
      · exact Nat.le_trans (Nat.le_add_right _ _) (ih h)

lemma start_lt_of_mem_locate {start : Nat} {ps : List (List Char)} {l : Lexeme}
    (hne : ∀ p ∈ ps, p ≠ []) (h : l ∈ locate start ps) :
    l.place.start < start + width ps.flatten := by
  induction ps generalizing start with
  | nil => cases h
  | cons p ps ih =>
      rw [List.flatten_cons, width_append]
      rcases List.mem_cons.mp h with rfl | h
      · have hpos : 0 < width p := width_pos (hne p (by simp))
        show start < start + (width p + width ps.flatten)
        omega
      · have hlt := ih (fun q hq => hne q (by simp [hq])) h
        rw [stop_ofPiece] at hlt
        omega

lemma ne_nil_of_mem_pieces {cs p : List Char} (h : p ∈ pieces cs) : p ≠ [] :=
  List.ne_nil_of_mem_splitBy h

/-- **The lexemes that start before one of a text** are those in front of it. -/
theorem filter_start_lt {s : String} {front back : List Lexeme} {l : Lexeme}
    (h : scan s = front ++ l :: back) :
    (scan s).filter (fun k => k.place.start < l.place.start) = front := by
  obtain ⟨before, p, after, hpieces, hfront, hl, hback⟩ := exists_of_scan h
  have hstart : l.place.start = width before.flatten := by rw [hl, place_ofPiece]
  have hne : ∀ q ∈ before, q ≠ [] := by
    intro q hq
    have hmem : q ∈ pieces s.toList := by simp [hpieces, hq]
    exact ne_nil_of_mem_pieces hmem
  have hbefore : ∀ k ∈ front, k.place.start < l.place.start := by
    intro k hk
    rw [hfront] at hk
    have hlt := start_lt_of_mem_locate hne hk
    rw [hstart]
    omega
  have hbehind : ∀ k ∈ l :: back, ¬ k.place.start < l.place.start := by
    intro k hk
    rcases List.mem_cons.mp hk with rfl | hk
    · exact Nat.lt_irrefl _
    · rw [hback] at hk
      have hle := le_start_of_mem_locate hk
      omega
  rw [h, List.filter_append, List.filter_eq_self.mpr (by simpa using hbefore),
    List.filter_eq_nil_iff.mpr (by simpa using hbehind), List.append_nil]

/-- All lexemes of a text start before its end. -/
lemma filter_start_lt_ending (s : String) :
    (scan s).filter (fun k => k.place.start < (Place.ending s).start) = scan s := by
  rw [List.filter_eq_self]
  intro k hk
  have hlt := start_lt_of_mem_locate (fun q hq => ne_nil_of_mem_pieces hq) hk
  rw [Nat.zero_add, flatten_pieces, width_toList] at hlt
  exact decide_eq_true hlt

end Lexeme

/-! ## Neighbouring pieces -/

/-- **The front of a text is cut as it is in the text.** -/
theorem pieces_flatten_front {cs : List Char} {front back : List (List Char)}
    (h : pieces cs = front ++ back) : pieces front.flatten = front := by
  obtain ⟨-, hne, hchain, hcut⟩ := List.splitBy_eq_iff.mp h
  refine List.splitBy_eq_iff.mpr ⟨rfl, ?_, ?_, (List.isChain_append.mp hcut).1⟩
  · intro hmem
    exact hne (by simp [hmem])
  · intro p hp
    exact hchain p (by simp [hp])

/-- Literals do not touch. -/
lemma not_literal_of_literal {cs : List Char} {front back : List (List Char)} (k l : Literal) :
    pieces cs ≠ front ++ k.digits :: l.digits :: back := by
  intro h
  have hcut := List.isChain_getLast_head_splitBy (fun a b : Char => a.isDigit && b.isDigit) cs
  have hpieces : cs.splitBy (fun a b : Char => a.isDigit && b.isDigit) =
      front ++ k.digits :: l.digits :: back := h
  rw [hpieces] at hcut
  obtain ⟨⟨hk, hl, hdigits⟩, -⟩ := List.isChain_cons_cons.mp (List.isChain_append.mp hcut).2.1
  rw [k.isDigit _ (List.getLast_mem hk), l.isDigit _ (List.head_mem hl)] at hdigits
  cases hdigits

/-- **No number stands directly behind a number.** -/
theorem Lexeme.not_number_of_scan {s : String} {front back : List Lexeme} {k l : Lexeme}
    (h : scan s = front ++ k :: l :: back) {m n : Option UInt64} (hk : k.token = .number m) :
    l.token ≠ .number n := by
  intro hl
  obtain ⟨before, p, after, hpieces, -, rfl, hback⟩ := exists_of_scan h
  cases after with
  | nil => cases hback
  | cons q after =>
      obtain ⟨rfl, -⟩ := List.cons.inj hback
      have hform : ∀ r ∈ pieces s.toList, IsPiece r := fun r hr => isPiece_of_mem_pieces hr
      rw [hpieces] at hform
      obtain ⟨x, rfl, -⟩ := (hform p (by simp)).eq_of_number hk
      obtain ⟨y, rfl, -⟩ := (hform q (by simp)).eq_of_number hl
      exact not_literal_of_literal x y hpieces

end CabbageFormula
